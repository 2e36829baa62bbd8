import ConsoleLens.Json.Reader
import ConsoleLens.Json.Record

/-!
# SourceMap/Document — the record of a source map

A plain map lists its sources, its names and its mappings.  An indexed map lists sections instead,
each a map of its own, or its address only, with the place where it starts.
-/

namespace ConsoleLens

open Json

/-- Where a section starts in the generated file, counted from 0. -/
structure SectionOffset where
  line : Nat
  column : Nat
  deriving DecidableEq

mutual

/-- The record of a source map. -/
structure MapDocument where
  version : Nat
  sourceRoot : Option String := none
  sources : List (Option String) := []
  names : List String := []
  mappings : String := ""
  sections : Option (List MapSection) := none

/-- The record of a section. -/
structure MapSection where
  offset : SectionOffset
  map : Option MapDocument := none

end

/-- Reads where a section starts. -/
def SectionOffset.ofJson? (j : Json) : Option SectionOffset := do
  let r ← j.record? ["line", "column"]
  return {
    line := ← r.required "line" index?
    column := ← r.required "column" index? }

/-- The fields of a source map. -/
def MapDocument.fields : List String :=
  ["version", "sourceRoot", "sources", "names", "mappings", "sections"]

/-- The fields of a section. -/
def MapSection.fields : List String := ["offset", "map"]

mutual

/-- **Reads the record of a source map.** -/
def MapDocument.ofJson? (j : Json) : Option MapDocument :=
  match _hr : j.record? MapDocument.fields with
  | none => none
  | some r => do
    let version ← r.required "version" index?
    let sourceRoot ← r.optional "sourceRoot" text?
    let sources ← r.orElse "sources" [] (list? (nullable? text?))
    let names ← r.orElse "names" [] (list? text?)
    let mappings ← r.orElse "mappings" "" text?
    let sections ← match _hv : r.get? "sections" with
      | none => some none
      | some .null => some none
      | some v => (MapSection.listOfJson? v).map some
    return { version, sourceRoot, sources, names, mappings, sections }
termination_by sizeOf j
decreasing_by exact sizeOf_get?_lt _hr _hv

/-- Reads a list of sections. -/
def MapSection.listOfJson? (j : Json) : Option (List MapSection) :=
  match j with
  | .array items => items.attach.mapM fun ⟨item, _⟩ => MapSection.ofJson? item
  | _ => none
termination_by sizeOf j
decreasing_by
  rename_i h
  have := sizeOf_lt_of_mem h
  simp only [array.sizeOf_spec]
  omega

/-- Reads a section. -/
def MapSection.ofJson? (j : Json) : Option MapSection :=
  match _hr : j.record? MapSection.fields with
  | none => none
  | some r => do
    let offset ← r.required "offset" SectionOffset.ofJson?
    let map ← match _hv : r.get? "map" with
      | none => some none
      | some .null => some none
      | some v => (MapDocument.ofJson? v).map some
    return { offset, map }
termination_by sizeOf j
decreasing_by exact sizeOf_get?_lt _hr _hv

end

/-- Reads the record of a source map from its text. -/
def MapDocument.read? (text : String) : Option MapDocument :=
  (Json.read? text).bind MapDocument.ofJson?

end ConsoleLens
