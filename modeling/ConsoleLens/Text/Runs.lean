/-!
# Text/Runs — a set of characters as the lengths of its runs

The code points from zero on fall into runs that lie outside the set and inside it by turns, an
outside run first.  **Past the last run a character counts as the run that would follow.**
-/

namespace ConsoleLens.Text

/-- Whether the `n`th place lies in a run of the set, the first run being `inside` or not. -/
def runsHold (inside : Bool) : List Nat → Nat → Bool
  | [], _ => inside
  | len :: rest, n => if n < len then inside else runsHold (!inside) rest (n - len)

/-- Whether a set given by its runs holds `c`. -/
def inRuns (runs : List Nat) (c : Char) : Bool := runsHold false runs c.toNat

end ConsoleLens.Text
