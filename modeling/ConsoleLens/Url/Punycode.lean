import ConsoleLens.Text.Digits

/-!
# Url/Punycode — characters beyond ASCII written within it

The characters of ASCII come first, up to the last hyphen.  What follows are numbers, each of which
tells where the next character goes and how far its code lies above the one before: digits in base
36, the least first, where a digit below its threshold ends the number.  Thresholds follow a bias
that adapts to the numbers so far.
-/

namespace ConsoleLens.Url.Punycode

/-- The value of a digit: letters first, then the decimal digits. -/
def digit? (c : Char) : Option Nat :=
  if c.isDigit then some (c.toNat - '0'.toNat + 26)
  else if c.isLower then some (c.toNat - 'a'.toNat)
  else if c.isUpper then some (c.toNat - 'A'.toNat)
  else none

/-- The threshold of the digit at a place, places being counted by 36. -/
def threshold (place bias : Nat) : Nat :=
  if place ≤ bias then 1 else min 26 (place - bias)

/-- The bias after a distance that has been scaled, `steps` being the part found so far. -/
def biasOf (steps distance : Nat) : Nat :=
  if 455 < distance then biasOf (steps + 36) (distance / 35)
  else steps + 36 * distance / (distance + 38)
termination_by distance
decreasing_by omega

/-- The bias after a number, for a text that then has `count` characters. -/
def adapt (distance count : Nat) (first : Bool) : Nat :=
  let scaled := if first then distance / 700 else distance / 2
  biasOf 0 (scaled + scaled / count)

/-- A text that is being read. -/
structure State where
  /-- The characters so far. -/
  out : List Char
  /-- The code of the last character put in. -/
  code : Nat := 128
  /-- The place after it. -/
  start : Nat := 0
  bias : Nat := 72
  /-- The number that is being read, counted on from `start`. -/
  number : Nat := 0
  weight : Nat := 1
  place : Nat := 36

/-- Whether no number has been begun. -/
def State.isWhole (s : State) : Bool := s.place = 36

/-- The text with the character that the number tells. -/
def State.insert? (s : State) : Option State :=
  let count := s.out.length + 1
  let code := s.code + s.number / count
  let spot := s.number % count
  if code.isValidChar then
    some {
      out := s.out.take spot ++ Char.ofNat code :: s.out.drop spot
      code
      start := spot + 1
      number := spot + 1
      bias := adapt (s.number - s.start) count (s.start = 0) }
  else none

/-- The text after one more digit. -/
def State.step? (s : State) (c : Char) : Option State :=
  (digit? c).bind fun d =>
    let number := s.number + d * s.weight
    let t := threshold s.place s.bias
    if d < t then { s with number }.insert?
    else some { s with number, weight := s.weight * (36 - t), place := s.place + 36 }

/-- The characters up to the last hyphen, and what follows it. -/
def splitLast (cs : List Char) : List Char × List Char :=
  let tail := (cs.reverse.takeWhile (· ≠ '-')).reverse
  match cs.length - tail.length with
  | 0 => ([], cs)
  | 1 => ([], cs)
  | n + 1 => (cs.take n, tail)

/-- **The text that is written so.** -/
def decode? (cs : List Char) : Option (List Char) :=
  let (basic, digits) := splitLast cs
  match digits.foldlM State.step? { out := basic } with
  | some s => if s.isWhole then some s.out else none
  | none => none

end ConsoleLens.Url.Punycode
