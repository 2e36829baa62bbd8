import ConsoleLens.Proofs.SourceMap.Line

/-!
# Proofs/SourceMap/Absolute — a plain map, read without its running sums

A segment spells differences; the decoder adds them up as it goes, in four sums that start over at
different points, and sorts each line.  The same map can be read off the text segment by segment:

    column         the first fields of its line, up to it
    place          the second, third and fourth fields of the whole text, up to it
    name           the fifth fields of the whole text, up to it

`Cursor.Sums` ties the decoder's sums to the segments behind it; **`lookup?_eq_linearLookup?` says
that a look-up is a search through the absolute segments of one line**, in the order of the text.
-/

namespace ConsoleLens

open Keyed

/-- The fields of a segment, differences all of them. -/
abbrev Fields := List Int

namespace Mapping

/-- The fields that a segment spells; one that spells nothing has none. -/
def fieldsOf (segment : List Char) : Fields :=
  match Vlq.decode segment with
  | .ok fields => fields
  | .error _ => []

/-- The sum of the fields at a position, over the segments that have so many. -/
def total (k : Nat) (segments : List Fields) : Int :=
  (segments.filterMap (·[k]?)).foldr (· + ·) 0

/-- **A segment with its fields absolute**: a source, an original line and column unless it has one
field only, and a name if it has five. -/
structure Absolute where
  column : Int
  place : Option (Int × Int × Int)
  name : Option Int

/-- The absolute fields of a segment: `text` are the segments of the whole text up to it and
`line` those of its line. -/
def absoluteOf (text line : List Fields) (fields : Fields) : Absolute where
  column := total 0 line
  place := if fields.length = 1 then none else some (total 1 text, total 2 text, total 3 text)
  name := if fields.length = 5 then some (total 4 text) else none

/-- The absolute segments of the rest of a line, `text` and `before` standing in front of it. -/
def absolutesFrom (text before rest : List Fields) : List Absolute :=
  rest.mapIdx fun n fields =>
    absoluteOf (text ++ rest.take (n + 1)) (before ++ rest.take (n + 1)) fields

/-- A mapping as an absolute segment. -/
def toAbsolute (m : Mapping) : Absolute where
  column := m.generatedColumn
  place := m.original.map fun o => (o.source, o.line, o.column)
  name := m.original.bind fun o => o.name.map Int.ofNat

/-! ## The running sums -/

/-- The sums of a cursor are those over the segments behind it. -/
structure Cursor.Sums (cursor : Cursor) (segments : List Fields) : Prop where
  source : cursor.source = total 1 segments
  line : cursor.line = total 2 segments
  column : cursor.column = total 3 segments
  name : cursor.name = total 4 segments

@[simp] theorem total_nil (k : Nat) : total k [] = 0 := rfl

theorem total_append (k : Nat) (xs ys : List Fields) :
    total k (xs ++ ys) = total k xs + total k ys := by
  simp only [total, ← List.sum_eq_foldr, List.filterMap_append, List.sum_append]

/-- One more segment adds its field, if it has one. -/
@[simp] theorem total_concat (k : Nat) (xs : List Fields) (fields : Fields) :
    total k (xs ++ [fields]) = total k xs + (fields[k]?).getD 0 := by
  rw [total_append]
  cases h : fields[k]? <;> simp [total, h]

/-- **What one segment adds**: its mapping is absolute and the sums go on. -/
theorem ofFields_ok {cursor cursor' : Cursor} {generated generated' : Int} {fields : Fields}
    {m : Mapping} (h : ofFields cursor generated fields = .ok (m, cursor', generated'))
    {text before : List Fields} (hsums : cursor.Sums text)
    (hgenerated : generated = total 0 before) :
    m.toAbsolute = absoluteOf (text ++ [fields]) (before ++ [fields]) fields ∧
      cursor'.Sums (text ++ [fields]) ∧ generated' = total 0 (before ++ [fields]) := by
  obtain ⟨hsource, hline, hcolumn, hname⟩ := hsums
  obtain ⟨g, rfl, hg, rfl, rfl, rfl⟩ | ⟨g, s, l, c, rfl, ⟨hg, hs, hl, hc⟩, rfl, rfl, rfl⟩ |
    ⟨g, s, l, c, n, rfl, ⟨hg, hs, hl, hc, hn⟩, rfl, rfl, rfl⟩ := ofFields_cases h
  · rw [hgenerated] at hg ⊢
    refine ⟨?_, ⟨?_, ?_, ?_, ?_⟩, ?_⟩
    · simp [toAbsolute, absoluteOf, hg.1]
    all_goals simp [*]
  · rw [hgenerated] at hg ⊢
    rw [hsource] at hs ⊢
    rw [hline] at hl ⊢
    rw [hcolumn] at hc ⊢
    refine ⟨?_, ⟨?_, ?_, ?_, ?_⟩, ?_⟩
    · simp [toAbsolute, absoluteOf, hg.1, hs.1, hl.1, hc.1]
    all_goals simp [hname]
  · rw [hgenerated] at hg ⊢
    rw [hsource] at hs ⊢
    rw [hline] at hl ⊢
    rw [hcolumn] at hc ⊢
    rw [hname] at hn ⊢
    refine ⟨?_, ⟨?_, ?_, ?_, ?_⟩, ?_⟩
    · simp [toAbsolute, absoluteOf, hg.1, hs.1, hl.1, hc.1, hn.1]
    all_goals simp

theorem absolutesFrom_cons (text before : List Fields) (fields : Fields) (rest : List Fields) :
    absolutesFrom text before (fields :: rest) =
      absoluteOf (text ++ [fields]) (before ++ [fields]) fields ::
        absolutesFrom (text ++ [fields]) (before ++ [fields]) rest := by
  simp [absolutesFrom, List.mapIdx_cons]

/-- **The mappings of a line are absolute**, as they stand. -/
theorem ofSegments_ok : ∀ {segments : List (List Char)} {cursor cursor' : Cursor} {generated : Int}
    {mappings : List Mapping}, ofSegments cursor generated segments = .ok (mappings, cursor') →
      ∀ {text before : List Fields}, cursor.Sums text → generated = total 0 before →
        mappings.map toAbsolute = absolutesFrom text before (segments.map fieldsOf) ∧
          cursor'.Sums (text ++ segments.map fieldsOf)
  | [], _, _, _, _, h, text, _, hsums, _ => by
      cases h
      exact ⟨rfl, (List.append_nil text).symm ▸ hsums⟩
  | segment :: rest, _, _, _, _, h, text, before, hsums, hgenerated => by
      obtain ⟨fields, m, cursor₁, generated₁, ms, hread, hm, hms, rfl⟩ := ofSegments_cases h
      have hfields : fieldsOf segment = fields := by rw [fieldsOf, hread]
      obtain ⟨hfirst, hsums₁, hgenerated₁⟩ := ofFields_ok hm hsums hgenerated
      obtain ⟨hrest, hsums₂⟩ := ofSegments_ok hms hsums₁ hgenerated₁
      rw [List.map_cons, List.map_cons, hfields, absolutesFrom_cons, hfirst, hrest]
      exact ⟨rfl, by rwa [List.append_cons]⟩

/-! ## Lines -/

/-- The segments of each line of a text. -/
def segmentLines (mappings : List Char) : List (List Fields) :=
  (Text.split ';' mappings).map fun line => (Text.splitNonempty ',' line).map fieldsOf

/-- The absolute segments of each line, `text` standing before the first. -/
def absoluteLinesFrom (text : List Fields) (lines : List (List Fields)) : List (List Absolute) :=
  lines.mapIdx fun n line => absolutesFrom (text ++ (lines.take n).flatten) [] line

theorem absoluteLinesFrom_cons (text : List Fields) (line : List Fields)
    (rest : List (List Fields)) :
    absoluteLinesFrom text (line :: rest) =
      absolutesFrom text [] line :: absoluteLinesFrom (text ++ line) rest := by
  simp [absoluteLinesFrom, List.mapIdx_cons]

/-- **Each line of a map is what its absolute segments come to when they are sorted.** -/
theorem ofLines_ok : ∀ {texts : List (List Char)} {cursor : Cursor} {lines : MappingLines},
    ofLines cursor texts = .ok lines → ∀ {text : List Fields}, cursor.Sums text →
      List.Forall₂ (fun line absolutes => ∃ ms, line = sort ms ∧ ms.map toAbsolute = absolutes)
        lines (absoluteLinesFrom text
          (texts.map fun line => (Text.splitNonempty ',' line).map fieldsOf))
  | [], _, _, h, _, _ => by
      cases h
      exact .nil
  | _ :: _, _, _, h, text, hsums => by
      obtain ⟨mappings, cursor', lines', hsegments, hrest, rfl⟩ := ofLines_cons h
      obtain ⟨hfirst, hsums'⟩ := ofSegments_ok hsegments hsums (total_nil 0).symm
      rw [List.map_cons, absoluteLinesFrom_cons]
      exact .cons ⟨mappings, rfl, hfirst⟩ (ofLines_ok hrest hsums')

/-- The absolute segments of each line of a text. -/
def absoluteLines (mappings : List Char) : List (List Absolute) :=
  absoluteLinesFrom [] (segmentLines mappings)

/-- **A text spells a line, or it does not.** -/
theorem decode_getElem? {mappings : List Char} {lines : MappingLines}
    (h : decode mappings = .ok lines) (n : Nat) :
    (lines[n]? = none ∧ (absoluteLines mappings)[n]? = none) ∨
    ∃ ms, lines[n]? = some (sort ms) ∧
      (absoluteLines mappings)[n]? = some (ms.map toAbsolute) := by
  have hstart : Cursor.Sums {} [] := ⟨rfl, rfl, rfl, rfl⟩
  obtain ⟨hlength, hall⟩ := List.forall₂_iff_get.mp (ofLines_ok h hstart)
  change lines.length = (absoluteLines mappings).length at hlength
  by_cases hn : n < lines.length
  · have hn' : n < (absoluteLines mappings).length := hlength ▸ hn
    obtain ⟨ms, hms, habsolute⟩ := hall n hn hn'
    refine .inr ⟨ms, ?_, ?_⟩
    · rw [List.getElem?_eq_getElem hn]
      exact congrArg some hms
    · rw [List.getElem?_eq_getElem hn']
      exact congrArg some habsolute.symm
  · exact .inl ⟨List.getElem?_eq_none (by omega), List.getElem?_eq_none (by omega)⟩

/-- The nearest mapping of a sorted line is the nearest of its segments as they stand. -/
theorem map_nearest_sort (ms : List Mapping) (column : Nat) :
    (nearest (·.generatedColumn) column (sort ms)).map toAbsolute =
      nearest (·.column) (column : Int) (ms.map toAbsolute) := by
  rw [(alike_sort ms).nearest_eq, nearest_map]
  refine congrArg _ (nearest_congr (fun m _ => ?_) fun m _ m' _ => ?_).symm
  all_goals exact Int.ofNat_le

end Mapping

/-! ## Look-up -/

/-- What an absolute segment comes to through the tables of a plain map: nothing if it has one field
or its source is none of the map's. -/
def MapDocument.resolve? (d : MapDocument) (segment : Mapping.Absolute) : Option Lookup := do
  let (source, line, column) ← segment.place
  let source ← source.toNat?.bind ((SourceMap.rootedSources d)[·]?)
  return { source, line := ← line.toNat?, column := ← column.toNat?,
           name := (segment.name.bind Int.toNat?).bind (d.names[·]?) }

/-- **The original place of a generated one, read off the text of a plain map**: of the segments of
a line, the last one of the greatest column up to the one asked for. -/
def MapDocument.linearLookup? (d : MapDocument) (line column : Nat) : Option Lookup := do
  let segments ← (Mapping.absoluteLines d.mappings.toList)[line]?
  let segment ← nearest (·.column) (column : Int) segments
  d.resolve? segment

namespace SourceMap

/-- A mapping and its absolute segment come to the same place. -/
theorem resolve?_toAbsolute (d : MapDocument) (lines : MappingLines) (m : Mapping) :
    resolve? ⟨rootedSources d, d.names, lines⟩ m = d.resolve? m.toAbsolute := by
  obtain ⟨generated, _ | ⟨source, line, column, _ | name⟩⟩ := m <;> rfl

/-- **A look-up in a plain map is a search through the segments of its line**, each taken by itself
with the sums of what stands before it. -/
theorem lookup?_eq_linearLookup? {text : String} {d : MapDocument} {m : SourceMap}
    (hd : MapDocument.read? text = some d) (hplain : d.sections = none) (h : parse text = .ok m)
    (line column : Nat) : m.lookup? line column = d.linearLookup? line column := by
  have hread : ofDocument d = .ok m := by rwa [parse, hd] at h
  rcases ofDocument_cases hread with ⟨-, lines, hlines, rfl⟩ | ⟨_, _, hs, -⟩
  · rw [(sorted_ofDocument hread).lookup?_eq, SourceMap.line, List.getD_eq_getElem?_getD,
      MapDocument.linearLookup?]
    rcases Mapping.decode_getElem? hlines line with ⟨hnone, hnone'⟩ | ⟨ms, hms, habsolute⟩
    · rw [hnone, hnone']
      rfl
    · rw [hms, habsolute, Option.getD_some, Option.bind_eq_bind, Option.bind_some,
        ← Mapping.map_nearest_sort]
      cases nearest (·.generatedColumn) column (Mapping.sort ms) with
      | none => rfl
      | some mapping => exact resolve?_toAbsolute d lines mapping
  · cases hplain.symm.trans hs

/-- A map whose first line goes back in columns and ends in a gap where its second segment starts;
its last segment goes on from there. -/
def disorderedText : String :=
  "[3,null,[\"a.ts\",\"b.ts\"],[\"f\"],\"KAAAA,FCCC,A;CAAA\"]"

theorem lookup?_eq_linearLookup?_disordered : ∃ d m, MapDocument.read? disorderedText = some d ∧
    d.sections = none ∧ parse disorderedText = .ok m ∧
    m.lookup? 0 5 = some ⟨"a.ts", 0, 0, some "f"⟩ ∧ m.lookup? 0 4 = none ∧
    m.lookup? 1 9 = some ⟨"b.ts", 1, 1, none⟩ := by
  obtain ⟨m, hm⟩ := exists_parse_eq_ok disorderedText (by decide +kernel)
  obtain ⟨d, hd, -⟩ := parse_eq_ok.mp hm
  have hread : (MapDocument.read? disorderedText).map (fun d => (d.sections.isNone,
      d.linearLookup? 0 5, d.linearLookup? 0 4, d.linearLookup? 1 9)) =
      some (true, some ⟨"a.ts", 0, 0, some "f"⟩, none, some ⟨"b.ts", 1, 1, none⟩) := by
    decide +kernel
  rw [hd, Option.map_some, Option.some.injEq, Prod.mk.injEq, Prod.mk.injEq, Prod.mk.injEq,
    Option.isNone_iff_eq_none] at hread
  obtain ⟨hplain, hfirst, hgap, hsecond⟩ := hread
  have hlookup (line column : Nat) := lookup?_eq_linearLookup? hd hplain hm line column
  exact ⟨d, m, hd, hplain, hm, (hlookup 0 5).trans hfirst, (hlookup 0 4).trans hgap,
    (hlookup 1 9).trans hsecond⟩

end SourceMap

end ConsoleLens
