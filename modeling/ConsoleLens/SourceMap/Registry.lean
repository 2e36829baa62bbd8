import ConsoleLens.Console.Position
import ConsoleLens.SourceMap.Basic
import ConsoleLens.Table

/-!
# SourceMap/Registry — source maps and scripts by address

A script of the page has one map, the one registered last for exactly its address; a text that is no
map changes nothing.  Scripts are also known by the number that the page gives them.

Maps count lines and columns from 0 and a page counts them from 1.  **The largest index has no room
to be counted from 1**, and whoever asks for a place that is mapped to it fails.
-/

namespace ConsoleLens

/-! ## Counting from 1 -/

/-- Why a place cannot be counted from 1. -/
inductive Overflow where
  /-- Its line or its column is the largest index, and one more is none. -/
  | pastLargest
  deriving DecidableEq

/-- One more than an index, where there is room for it. -/
def oneBased (n : Nat) : Except Overflow Nat :=
  if n < Json.maxIndex then .ok (n + 1) else .error .pastLargest

theorem oneBased_of_lt {n : Nat} (h : n < Json.maxIndex) : oneBased n = .ok (n + 1) := if_pos h

theorem oneBased_of_not_lt {n : Nat} (h : ¬ n < Json.maxIndex) : oneBased n = .error .pastLargest :=
  if_neg h

/-- The place that is found, its line and its column counted from 1. -/
def Lookup.position (found : Lookup) : Except Overflow Position := do
  return ⟨← oneBased found.line, ← oneBased found.column, found.source⟩

/-- **A place that is found is counted from 1 where there is room for both its line and its
column.** -/
theorem Lookup.position_eq (found : Lookup) :
    found.position =
      if found.line < Json.maxIndex ∧ found.column < Json.maxIndex then
        .ok ⟨found.line + 1, found.column + 1, found.source⟩
      else .error .pastLargest := by
  split
  · next h =>
    rw [position, oneBased_of_lt h.1, oneBased_of_lt h.2]
    rfl
  · next h =>
    by_cases hline : found.line < Json.maxIndex
    · rw [position, oneBased_of_lt hline, oneBased_of_not_lt fun hcolumn => h ⟨hline, hcolumn⟩]
      rfl
    · rw [position, oneBased_of_not_lt hline]
      rfl

/-! ## Maps and scripts -/

/-- The maps and the scripts of a page. -/
structure Registry where
  maps : Table String SourceMap := {}
  scripts : Table String String := {}

namespace Registry

/-- The registry that knows nothing. -/
def empty : Registry := {}

/-- The registry with a map for an address. -/
def insertMap (r : Registry) (url : String) (m : SourceMap) : Registry :=
  { r with maps := r.maps.insert url m }

/-- The registry with the map that a text describes, and whether there is one. -/
def addMap (r : Registry) (url data : String) : Bool × Registry :=
  match SourceMap.parse data with
  | .ok m => (true, r.insertMap url m)
  | .error _ => (false, r)

/-- Whether an address has a map. -/
def containsMap (r : Registry) (url : String) : Bool := r.maps.contains url

/-- The registry with the address of a script. -/
def addScript (r : Registry) (id url : String) : Registry :=
  { r with scripts := r.scripts.insert id url }

/-- The address of a script. -/
def scriptUrl? (r : Registry) (id : String) : Option String := r.scripts.get? id

/-- **The original place of a generated one**, lines and columns counted from 1 on both sides; empty
when the address has no map or the place is not mapped, and a failure when the original place cannot
be counted from 1. -/
def resolve (r : Registry) (url : String) (line column : Nat) : Except Overflow Position :=
  if line = 0 ∨ column = 0 then .ok .empty
  else
    match (r.maps.get? url).bind (·.lookup? (line - 1) (column - 1)) with
    | none => .ok .empty
    | some found => found.position

end Registry

end ConsoleLens
