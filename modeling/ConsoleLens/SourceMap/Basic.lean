import ConsoleLens.SourceMap.Document
import ConsoleLens.SourceMap.Mapping
import ConsoleLens.Url.Basic

/-!
# SourceMap/Basic — a source map and its look-up

The map of an indexed document is the union of its sections' maps: lines and columns are shifted to
where the section starts, the column on its first line only, and indexes run on through the joined
tables.  **Of the mappings on a line the last one not past the column is looked up**, equal columns
counting in the order in which they were given.
-/

namespace ConsoleLens

/-- A source map whose mappings are sorted on each line. -/
structure SourceMap where
  sources : List String := []
  names : List String := []
  lines : MappingLines := []
  deriving DecidableEq

/-- The original place of a generated one; all count from 0. -/
structure Lookup where
  source : String
  line : Nat
  column : Nat
  name : Option String
  deriving DecidableEq

namespace SourceMap

/-- A section may not reach past this line. -/
def maxLines : Nat := 1048576

/-! ## Sources -/

/-- A source under the root of its map; an absolute address stands for itself. -/
def joinRoot (root source : String) : String :=
  if root.isEmpty || (Url.parse? source).isSome then source
  else if root.toList.getLast? = some '/' then root ++ source
  else root ++ "/" ++ source

/-! ## Sections -/

/-- An index into a joined table. -/
def shiftIndex (offset n : Nat) : Except MapFault Nat :=
  if n + offset ≤ Json.maxIndex then .ok (n + offset) else .error (.outOfRange n)

/-- The original place with its indexes moved to the joined tables. -/
def shiftOriginal (sourceOffset nameOffset : Nat) (o : Original) : Except MapFault Original := do
  let source ← shiftIndex sourceOffset o.source
  let name ← match o.name with
    | none => pure none
    | some n => (shiftIndex nameOffset n).map some
  return { o with source, name }

/-- A mapping moved to where its section starts, by `shift` columns. -/
def shiftMapping (offset : SectionOffset) (shift sourceOffset nameOffset : Nat) (m : Mapping) :
    Except MapFault Mapping := do
  let original ← match m.original with
    | none => pure none
    | some o => (shiftOriginal sourceOffset nameOffset o).map some
  if m.generatedColumn + shift ≤ Json.maxIndex then
    return { generatedColumn := m.generatedColumn + shift, original }
  else .error (.sectionOffset offset.line offset.column)

/-- The lines of a section moved to its column, which counts on the first line only. -/
def shiftLines (offset : SectionOffset) (sourceOffset nameOffset : Nat) :
    MappingLines → Except MapFault MappingLines
  | [] => .ok []
  | first :: rest => do
    let first ← first.mapM (shiftMapping offset offset.column sourceOffset nameOffset)
    let rest ← rest.mapM (·.mapM (shiftMapping offset 0 sourceOffset nameOffset))
    return first :: rest

/-- The lines of two maps, one after the other on each line. -/
def overlay (first second : MappingLines) : MappingLines :=
  first.zipWith (· ++ ·) second ++ first.drop second.length ++ second.drop first.length

/-- The lines from the line `n` on, empty ones standing before them. -/
def lowered (n : Nat) (lines : MappingLines) : MappingLines :=
  if lines.isEmpty then [] else List.replicate n [] ++ lines

/-- A table's length as an offset. -/
def tableOffset (length : Nat) : Except MapFault Nat :=
  if length ≤ Json.maxIndex then .ok length else .error (.outOfRange length)

/-- The map with a section's map put in where the section starts, its lines not sorted yet. -/
def addSection (combined : SourceMap) (offset : SectionOffset) (m : SourceMap) :
    Except MapFault SourceMap := do
  if offset.line + m.lines.length > maxLines then
    throw (.sectionOffset offset.line offset.column)
  let sourceOffset ← tableOffset combined.sources.length
  let nameOffset ← tableOffset combined.names.length
  let lines ← shiftLines offset sourceOffset nameOffset m.lines
  return {
    sources := combined.sources ++ m.sources
    names := combined.names ++ m.names
    lines := overlay combined.lines (lowered offset.line lines) }

mutual

/-- **The map that a record describes.** -/
def ofDocument : MapDocument → Except MapFault SourceMap
  | ⟨version, sourceRoot, sources, names, mappings, sections⟩ =>
    if version ≠ 3 then .error (.unsupportedVersion version)
    else
      match sections with
      | some sections => do
        let m ← addSections {} sections
        return { m with lines := m.lines.map Mapping.sort }
      | none => do
        let lines ← Mapping.decode mappings.toList
        return { sources := sources.map fun s => joinRoot (sourceRoot.getD "") (s.getD ""),
                 names, lines }

/-- The map with the maps of sections put in, one after the other. -/
def addSections (combined : SourceMap) : List MapSection → Except MapFault SourceMap
  | [] => .ok combined
  | ⟨_, none⟩ :: _ => .error .externalSection
  | ⟨offset, some document⟩ :: rest => do
    let m ← ofDocument document
    let combined ← addSection combined offset m
    addSections combined rest

end

/-- **The map that a text describes.** -/
def parse (text : String) : Except MapFault SourceMap :=
  match MapDocument.read? text with
  | none => .error .malformed
  | some document => ofDocument document

/-! ## Look-up -/

/-- The last mapping of a line that is not past a column. -/
def mappingAt? (line : List Mapping) (column : Nat) : Option Mapping :=
  (line.takeWhile (·.generatedColumn ≤ column)).getLast?

/-- **The original place of a generated line and column**, all counted from 0. -/
def lookup? (m : SourceMap) (line column : Nat) : Option Lookup := do
  let mappings ← m.lines[line]?
  let mapping ← mappingAt? mappings column
  let original ← mapping.original
  let source ← m.sources[original.source]?
  return { source, line := original.line, column := original.column,
           name := original.name.bind fun n => m.names[n]? }

end SourceMap

end ConsoleLens
