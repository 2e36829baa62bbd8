import ConsoleLens.Json.Printer
import ConsoleLens.SourceMap.Vlq

/-!
# SourceMap/Sample — small maps for one source

The texts of two source maps that are easy to predict: one that maps a rectangle of places to
itself, and one with a single mapping.
-/

namespace ConsoleLens.Sample

/-- The text of a map of one source without names. -/
def mapText (source : String) (mappings : List Char) : String :=
  (Json.object [("mappings", .string (String.ofList mappings)), ("names", .array []),
    ("sources", .array [.string source]), ("version", .ofNat 3)]).render

/-- The segments of one line of the identity: its first segment steps to the next line and back to
the first column, and every other one a column on. -/
def identityLine (columns line : Nat) : List Char :=
  [','].intercalate <| (List.range columns).map fun column =>
    if column = 0 then
      Vlq.encode [0, 0, if line = 0 then 0 else 1, if line = 0 then 0 else -((columns : Int) - 1)]
    else Vlq.encode [1, 0, 0, 1]

/-- **The map that takes each of the first places of a source to itself.** -/
def identity (source : String) (lines columns : Nat) : String :=
  mapText source ([';'].intercalate ((List.range lines).map (identityLine columns)))

/-- **The map with one mapping**, from a generated place to an original one, counted from 0. -/
def single (source : String) (generated original : Nat × Nat) : String :=
  mapText source <| List.replicate generated.1 ';' ++
    Vlq.encode [(generated.2 : Int), 0, original.1, original.2]

end ConsoleLens.Sample
