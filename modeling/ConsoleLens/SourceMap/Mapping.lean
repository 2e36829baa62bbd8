import ConsoleLens.Json.Record
import ConsoleLens.SourceMap.Fault
import ConsoleLens.Text.Split

/-!
# SourceMap/Mapping — the mappings of a generated file

Lines are parted by semicolons and segments by commas.  A segment has one field, a generated column,
or four or five: a source, an original line and column and, maybe, a name follow it.  **Every field
is relative**: the column to the segment before it on the line, the others to the last segment
of the whole text that gave them.
-/

namespace ConsoleLens

/-- Where a generated column came from; all count from 0. -/
structure Original where
  source : Nat
  line : Nat
  column : Nat
  name : Option Nat := none
  deriving DecidableEq

/-- A generated column and where it came from, if from anywhere. -/
structure Mapping where
  generatedColumn : Nat
  original : Option Original := none
  deriving DecidableEq

/-- The mappings of each generated line. -/
abbrev MappingLines := List (List Mapping)

namespace Mapping

/-- The order of generated columns. -/
def le (a b : Mapping) : Bool := a.generatedColumn ≤ b.generatedColumn

/-- Mappings by generated column; equal columns keep their order. -/
def sort (line : List Mapping) : List Mapping := line.mergeSort le

/-- The sums that run through the whole text. -/
structure Cursor where
  source : Int := 0
  line : Int := 0
  column : Int := 0
  name : Int := 0

/-- A sum as an index. -/
def index (n : Int) : Except MapFault Nat :=
  if 0 ≤ n ∧ n ≤ Json.maxIndex then .ok n.toNat else .error (.outOfRange n)

/-- The mapping of a segment's fields, and the sums after it.  A name is checked before the source,
the original line, the original column and the generated column. -/
def ofFields (cursor : Cursor) (generated : Int) :
    List Int → Except MapFault (Mapping × Cursor × Int)
  | [g] => do
    let generated := generated + g
    return (⟨← index generated, none⟩, cursor, generated)
  | [g, s, l, c] => do
    let generated := generated + g
    let cursor := { cursor with
      source := cursor.source + s, line := cursor.line + l, column := cursor.column + c }
    let original :=
      ⟨← index cursor.source, ← index cursor.line, ← index cursor.column, none⟩
    return (⟨← index generated, some original⟩, cursor, generated)
  | [g, s, l, c, n] => do
    let generated := generated + g
    let cursor : Cursor :=
      ⟨cursor.source + s, cursor.line + l, cursor.column + c, cursor.name + n⟩
    let name ← index cursor.name
    let original :=
      ⟨← index cursor.source, ← index cursor.line, ← index cursor.column, some name⟩
    return (⟨← index generated, some original⟩, cursor, generated)
  | fields => .error (.fieldCount fields.length)

/-- The mappings of a line's segments as they stand, and the sums after them. -/
def ofSegments (cursor : Cursor) (generated : Int) :
    List (List Char) → Except MapFault (List Mapping × Cursor)
  | [] => .ok ([], cursor)
  | segment :: rest => do
    let fields ← (Vlq.decode segment).mapError .digits
    let (mapping, cursor, generated) ← ofFields cursor generated fields
    let (mappings, cursor) ← ofSegments cursor generated rest
    return (mapping :: mappings, cursor)

/-- The mappings of lines, each sorted by generated column. -/
def ofLines (cursor : Cursor) : List (List Char) → Except MapFault MappingLines
  | [] => .ok []
  | line :: rest => do
    let (mappings, cursor) ← ofSegments cursor 0 (Text.splitNonempty ',' line)
    let lines ← ofLines cursor rest
    return sort mappings :: lines

/-- **The mappings that a text spells**, line by line. -/
def decode (mappings : List Char) : Except MapFault MappingLines :=
  ofLines {} (Text.split ';' mappings)

end Mapping

end ConsoleLens
