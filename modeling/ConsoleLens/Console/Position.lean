import ConsoleLens.Json.Record
import ConsoleLens.Text.Split

/-!
# Console/Position — a place in a script

Generated positions count lines and columns from 0.  Original positions count from 1, and **an empty
source says that the place is not known**.
-/

namespace ConsoleLens

/-- A place in a script. -/
structure Position where
  line : Nat := 0
  column : Nat := 0
  source : String := ""
  deriving DecidableEq, Inhabited

namespace Position

/-- The place that is nowhere. -/
def empty : Position := {}

/-- Whether the place is not known. -/
def isEmpty (p : Position) : Bool := p.source.isEmpty

/-- The directories and the file of the source. -/
def segments (p : Position) : List String := Text.segments p.source

/-- Source and line. -/
def location (p : Position) : String := p.source ++ ":" ++ toString p.line

/-- Source, line and column. -/
def text (p : Position) : String := p.location ++ ":" ++ toString p.column

/-- Reads a position. -/
def ofJson? (j : Json) : Option Position := do
  let r ← j.record? ["line", "column", "source"]
  return {
    line := ← r.required "line" Json.index?
    column := ← r.required "column" Json.index?
    source := ← r.required "source" Json.text? }

/-- Writes a position. -/
def toJson (p : Position) : Json :=
  .object [("line", .ofNat p.line), ("column", .ofNat p.column), ("source", .string p.source)]

end Position

end ConsoleLens
