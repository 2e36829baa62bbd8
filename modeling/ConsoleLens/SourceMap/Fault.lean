import ConsoleLens.SourceMap.Vlq
import ConsoleLens.Text.CharLiteral

/-!
# SourceMap/Fault — why a source map is refused

Each cause is a constructor, and `message` gives its one wording.
-/

namespace ConsoleLens

/-- Why a source map is refused. -/
inductive MapFault where
  /-- The text is no record of a source map. -/
  | malformed
  | unsupportedVersion (version : Nat)
  | digits (fault : Vlq.Fault)
  /-- A segment has neither one nor four nor five fields. -/
  | fieldCount (count : Nat)
  /-- A summed index or coordinate leaves its range. -/
  | outOfRange (value : Int)
  /-- A section names its map by address only. -/
  | externalSection
  | sectionOffset (line column : Nat)
  deriving DecidableEq

namespace MapFault

/-- The wording of a cause; a text that is no record has none. -/
def message : MapFault → Option String
  | malformed => none
  | unsupportedVersion v => some ("unsupported source map version " ++ toString v)
  | digits (.invalidDigit c) => some ("invalid base64 VLQ digit " ++ Text.charLiteral c)
  | digits .truncated => some "truncated VLQ segment"
  | digits .overflow => some "VLQ value overflows"
  | fieldCount n => some ("invalid mapping segment with " ++ toString n ++ " fields")
  | outOfRange v => some ("invalid mapping value " ++ toString v)
  | externalSection => some "indexed source map section without an inline map"
  | sectionOffset line column =>
    some ("indexed source map section offset " ++ toString line ++ ":" ++ toString column ++
      " out of range")

end MapFault

end ConsoleLens
