import ConsoleLens.Proofs.Console.Attribution
import ConsoleLens.Proofs.SourceMap.Union

/-!
# Proofs/SourceMap/OneBased — what is found, counted from 1

Every original line and column of a map is an index: the decoder checks its sums, and sections move
generated places only (`bounded_ofDocument`).  A place that is found is counted from 1, unless its
line or its column is the largest index:

    line, column < 2 ^ 32 - 1      ──resolve──▸  line + 1, column + 1
    line or column = 2 ^ 32 - 1    ──resolve──▸  failure

The largest index is an index, though.  **A map is resolved as it stands unless a look-up comes to
the largest index** (`resolvesExactly_iff`), plain maps and indexed ones alike, and there resolving
fails (`farTexts_not_resolvesExactly`).
-/

namespace ConsoleLens

open Json PlacedMap

/-! ## Original places are indexes -/

namespace Mapping

/-- The original line and column of a mapping are indexes. -/
def Bounded (m : Mapping) : Prop :=
  ∀ o, m.original = some o → o.line ≤ maxIndex ∧ o.column ≤ maxIndex

variable {cursor cursor' : Cursor} {generated generated' : Int} {fields : List Int} {m : Mapping}

theorem toNat_le_maxIndex {n : Int} (h : IsIndex n) : n.toNat ≤ maxIndex := by
  have := h.2
  omega

theorem bounded_of_ofFields
    (h : ofFields cursor generated fields = .ok (m, cursor', generated')) : m.Bounded := by
  intro o ho
  obtain ⟨g, -, -, rfl, -⟩ | ⟨g, s, l, c, -, ⟨-, -, hl, hc⟩, rfl, -⟩ |
    ⟨g, s, l, c, n, -, ⟨-, -, hl, hc, -⟩, rfl, -⟩ := ofFields_cases h
  · cases ho
  all_goals
    obtain rfl := Option.some.inj ho
    exact ⟨toNat_le_maxIndex hl, toNat_le_maxIndex hc⟩

theorem bounded_of_mem_ofSegments : ∀ {segments : List (List Char)} {cursor cursor' : Cursor}
    {generated : Int} {mappings : List Mapping},
    ofSegments cursor generated segments = .ok (mappings, cursor') → ∀ m ∈ mappings, m.Bounded
  | [], _, _, _, _, h, m, hm => by
      cases h
      cases hm
  | _ :: _, _, _, _, _, h, m, hm => by
      obtain ⟨fields, first, _, _, rest, -, hfirst, hrest, rfl⟩ := ofSegments_cases h
      rcases List.mem_cons.mp hm with rfl | hm
      · exact bounded_of_ofFields hfirst
      · exact bounded_of_mem_ofSegments hrest m hm

theorem bounded_of_mem_ofLines : ∀ {texts : List (List Char)} {cursor : Cursor}
    {lines : MappingLines}, ofLines cursor texts = .ok lines →
      ∀ line ∈ lines, ∀ m ∈ line, m.Bounded
  | [], _, _, h, _, hline => by
      cases h
      cases hline
  | _ :: _, _, _, h, line, hline => by
      obtain ⟨mappings, cursor', lines', hsegments, hrest, rfl⟩ := ofLines_cons h
      rcases List.mem_cons.mp hline with rfl | hline
      · exact fun m hm => bounded_of_mem_ofSegments hsegments m (List.mem_mergeSort.mp hm)
      · exact bounded_of_mem_ofLines hrest line hline

/-- Moving a mapping leaves its original line and column. -/
theorem Bounded.moved (h : m.Bounded) (columns sources names : Nat) :
    (m.moved columns sources names).Bounded := by
  intro o ho
  obtain ⟨o', ho', rfl⟩ := Option.map_eq_some_iff.mp ho
  exact h o' ho'

end Mapping

namespace SourceMap

/-- **Every original line and column of a map is an index.** -/
def Bounded (m : SourceMap) : Prop := ∀ n, ∀ mapping ∈ m.line n, mapping.Bounded

theorem mem_line {m : SourceMap} {n : Nat} {mapping : Mapping} (h : mapping ∈ m.line n) :
    ∃ line ∈ m.lines, mapping ∈ line := by
  rw [line, List.getD_eq_getElem?_getD] at h
  cases hn : m.lines[n]? with
  | none =>
    rw [hn] at h
    cases h
  | some mappings =>
    rw [hn] at h
    exact ⟨mappings, List.mem_of_getElem? hn, h⟩

end SourceMap

theorem PlacedMap.bounded_of_mem_lineAt {p : PlacedMap} (h : p.map.Bounded)
    {sources names line : Nat} {m : Mapping} (hm : m ∈ p.lineAt sources names line) :
    m.Bounded := by
  unfold lineAt at hm
  split at hm
  · cases hm
  · obtain ⟨m', hm', rfl⟩ := List.mem_map.mp hm
    exact (h _ m' hm').moved _ _ _

theorem PlacedMap.bounded_of_mem_unitedLine {ps : List PlacedMap} (h : ∀ p ∈ ps, p.map.Bounded)
    {line sources names : Nat} {m : Mapping} (hm : m ∈ unitedLine line sources names ps) :
    m.Bounded := by
  induction ps generalizing sources names with
  | nil => cases hm
  | cons p rest ih =>
    obtain ⟨hp, hrest⟩ := List.forall_mem_cons.mp h
    rcases List.mem_append.mp hm with hm | hm
    · exact bounded_of_mem_lineAt hp hm
    · exact ih hrest hm

namespace SourceMap

theorem Unites.bounded {m : SourceMap} {ps : List PlacedMap} (h : m.Unites ps)
    (hps : ∀ p ∈ ps, p.map.Bounded) : m.Bounded :=
  fun n mapping hmapping => bounded_of_mem_unitedLine hps (((h.line n).mem_iff mapping).mp hmapping)

mutual

theorem bounded_ofDocument : ∀ (d : MapDocument) {m : SourceMap}, ofDocument d = .ok m → m.Bounded
  | ⟨version, sourceRoot, sources, names, mappings, none⟩, m, h => by
      rcases ofDocument_cases h with ⟨-, lines, hlines, rfl⟩ | ⟨sections, -, hs, -⟩
      · intro n mapping hmapping
        obtain ⟨line, hline, hmem⟩ := mem_line hmapping
        exact Mapping.bounded_of_mem_ofLines hlines line hline mapping hmem
      · cases hs
  | ⟨version, sourceRoot, sources, names, mappings, some sections⟩, m, h => by
      obtain ⟨maps, hmaps, hunites⟩ := unites_sections h rfl
      exact hunites.bounded (bounded_sections sections (mapM_eq_ok.mp hmaps))

theorem bounded_sections : ∀ (sections : List MapSection) {maps : List PlacedMap},
    List.Forall₂ (MapSection.read · = .ok ·) sections maps → ∀ p ∈ maps, p.map.Bounded
  | [], _, .nil => List.forall_mem_nil _
  | ⟨_, none⟩ :: _, _, .cons hfirst _ => by cases hfirst
  | ⟨_, some d⟩ :: rest, _, .cons hfirst hrest =>
      List.forall_mem_cons.mpr ⟨bounded_ofDocument d (read_eq_ok.mp hfirst).2,
        bounded_sections rest hrest⟩

end

/-! ## Look-up -/

/-- What is found are the original line and column of a mapping on the line. -/
theorem exists_mapping_of_lookup? {m : SourceMap} {line column : Nat} {found : Lookup}
    (h : m.lookup? line column = some found) : ∃ mapping ∈ m.line line, ∃ o,
      mapping.original = some o ∧ found.line = o.line ∧ found.column = o.column := by
  rw [lookup?_eq_bind, Option.bind_eq_some_iff] at h
  obtain ⟨mapping, hmapping, h⟩ := h
  obtain ⟨o, ho, h⟩ := Option.bind_eq_some_iff.mp h
  obtain ⟨source, -, h⟩ := Option.bind_eq_some_iff.mp h
  cases h
  exact ⟨mapping, List.takeWhile_subset _ (List.mem_of_getLast? hmapping), o, ho, rfl, rfl⟩

/-- **What is found in a map that is read are indexes.** -/
theorem found_le_maxIndex {text : String} {m : SourceMap} (h : parse text = .ok m)
    {line column : Nat} {found : Lookup} (hfound : m.lookup? line column = some found) :
    found.line ≤ maxIndex ∧ found.column ≤ maxIndex := by
  obtain ⟨d, -, hread⟩ := parse_eq_ok.mp h
  obtain ⟨mapping, hmapping, o, ho, hline, hcolumn⟩ := exists_mapping_of_lookup? hfound
  rw [hline, hcolumn]
  exact bounded_ofDocument d hread line mapping hmapping o ho

end SourceMap

/-! ## Counting from 1 -/

/-- **An index has one after it unless it is the largest one.** -/
theorem Lookup.position_of_le {found : Lookup} (hline : found.line ≤ maxIndex)
    (hcolumn : found.column ≤ maxIndex) :
    found.position =
      if found.line = maxIndex ∨ found.column = maxIndex then .error .pastLargest
      else .ok ⟨found.line + 1, found.column + 1, found.source⟩ := by
  rw [position_eq]
  by_cases hmax : found.line = maxIndex ∨ found.column = maxIndex
  · rw [if_pos hmax, if_neg (by omega)]
  · rw [if_neg hmax, if_pos (by omega)]

namespace Registry

theorem addMap_eq_true_iff {r r' : Registry} {url text : String} :
    r.addMap url text = (true, r') ↔
      ∃ m, SourceMap.parse text = .ok m ∧ r.insertMap url m = r' := by
  unfold addMap
  cases SourceMap.parse text <;> simp

/-- What a map resolves to is what it finds; a place at the largest index fails. -/
theorem resolve_insertMap {text : String} {m : SourceMap} (h : SourceMap.parse text = .ok m)
    (r : Registry) (url : String) {line column : Nat} (hline : 1 ≤ line) (hcolumn : 1 ≤ column) :
    (r.insertMap url m).resolve url line column =
      match m.lookup? (line - 1) (column - 1) with
      | none => .ok .empty
      | some found =>
        if found.line = maxIndex ∨ found.column = maxIndex then .error .pastLargest
        else .ok ⟨found.line + 1, found.column + 1, found.source⟩ := by
  obtain ⟨line, rfl⟩ := Nat.exists_eq_add_of_le' hline
  obtain ⟨column, rfl⟩ := Nat.exists_eq_add_of_le' hcolumn
  rw [resolve_succ, find?_insertMap_self, Nat.add_sub_cancel, Nat.add_sub_cancel]
  cases hfound : m.lookup? line column with
  | none => rfl
  | some found =>
    obtain ⟨hl, hc⟩ := SourceMap.found_le_maxIndex h hfound
    exact Lookup.position_of_le hl hc

end Registry

namespace SourceMap

/-- **A text is resolved exactly**: wherever it is registered, resolving a place counted from 1 does
not fail.  It comes to nothing if nothing is found there, and otherwise to what is found, its line
and column one more than those that are found, both at least 1 and in a word. -/
def ResolvesExactly (text : String) : Prop :=
  ∀ (r r' : Registry) (url : String), r.addMap url text = (true, r') →
    ∀ line column, 1 ≤ line → line ≤ maxIndex → 1 ≤ column → column ≤ maxIndex →
      match r'.find? url (line - 1) (column - 1) with
      | none => r'.resolve url line column = .ok .empty
      | some found => ∃ place, r'.resolve url line column = .ok place ∧
          place = ⟨found.line + 1, found.column + 1, found.source⟩ ∧
          (1 ≤ place.line ∧ place.line ≤ maxIndex) ∧ 1 ≤ place.column ∧ place.column ≤ maxIndex

/-- What is resolved exactly does not fail. -/
theorem ResolvesExactly.ne_error {text url : String} (h : ResolvesExactly text) {r r' : Registry}
    (hadd : r.addMap url text = (true, r')) {line column : Nat} (hline : line < maxIndex)
    (hcolumn : column < maxIndex) (e : Overflow) :
    r'.resolve url (line + 1) (column + 1) ≠ .error e := by
  have hexact := h r r' url hadd (line + 1) (column + 1) (Nat.le_add_left 1 line) hline
    (Nat.le_add_left 1 column) hcolumn
  intro herror
  rw [herror] at hexact
  split at hexact
  · cases hexact
  · obtain ⟨place, hplace, -⟩ := hexact
    cases hplace

/-- What is resolved exactly is not found at the largest index. -/
theorem ResolvesExactly.ne_maxIndex {text : String} {m : SourceMap} (h : ResolvesExactly text)
    (hm : parse text = .ok m) {line column : Nat} (hline : line < maxIndex)
    (hcolumn : column < maxIndex) {found : Lookup} (hfound : m.lookup? line column = some found) :
    found.line ≠ maxIndex ∧ found.column ≠ maxIndex := by
  have hadd := Registry.addMap_of_parse hm .empty ""
  refine not_or.mp fun hmax => h.ne_error hadd hline hcolumn .pastLargest ?_
  rw [Registry.resolve_insertMap hm .empty "" (Nat.le_add_left 1 line) (Nat.le_add_left 1 column),
    Nat.add_sub_cancel, Nat.add_sub_cancel, hfound]
  exact if_pos hmax

/-- **A text is resolved exactly unless a look-up in its map comes to the largest index.**  Whatever
the map, a place where nothing is found is resolved to nothing, and every other one to the line and
the column behind those that are found; only behind the largest index there is none, and resolving
fails. -/
theorem resolvesExactly_iff (text : String) :
    (ResolvesExactly text ↔ ∀ m, parse text = .ok m →
      ∀ line column, line < maxIndex → column < maxIndex → ∀ found,
        m.lookup? line column = some found → found.line ≠ maxIndex ∧ found.column ≠ maxIndex) ∧
    ∀ (r r' : Registry) (url : String), r.addMap url text = (true, r') →
      ∃ m, parse text = .ok m ∧ ∀ line column, 1 ≤ line → 1 ≤ column →
        r'.resolve url line column =
          match m.lookup? (line - 1) (column - 1) with
          | none => .ok .empty
          | some found =>
            if found.line = maxIndex ∨ found.column = maxIndex then .error .pastLargest
            else .ok ⟨found.line + 1, found.column + 1, found.source⟩ := by
  refine ⟨⟨fun h m hm line column hl hc found => h.ne_maxIndex hm hl hc, ?_⟩,
    fun r r' url hadd => ?_⟩
  · intro h r r' url hadd line column hl hl' hc hc'
    obtain ⟨m, hm, rfl⟩ := Registry.addMap_eq_true_iff.mp hadd
    rw [Registry.find?_insertMap_self, Registry.resolve_insertMap hm r url hl hc]
    cases hfound : m.lookup? (line - 1) (column - 1) with
    | none => rfl
    | some found =>
      obtain ⟨hline, hcolumn⟩ := h m hm _ _ (by omega) (by omega) found hfound
      obtain ⟨hline', hcolumn'⟩ := found_le_maxIndex hm hfound
      exact ⟨_, if_neg (not_or.mpr ⟨hline, hcolumn⟩), rfl,
        ⟨Nat.le_add_left 1 _, Nat.lt_of_le_of_ne hline' hline⟩,
        Nat.le_add_left 1 _, Nat.lt_of_le_of_ne hcolumn' hcolumn⟩
  · obtain ⟨m, hm, rfl⟩ := Registry.addMap_eq_true_iff.mp hadd
    exact ⟨m, hm, fun line column => Registry.resolve_insertMap hm r url⟩

/-- A map to the last line that can be counted from 1. -/
def lastLineText : String := "[3,null,[\"a.ts\"],[],\"AA8/////HA\"]"

theorem resolvesExactly_lastLineText : ResolvesExactly lastLineText ∧
    ∃ r, Registry.empty.addMap "/app.js" lastLineText = (true, r) ∧
      r.resolve "/app.js" 1 1 = .ok ⟨maxIndex, 1, "a.ts"⟩ := by
  have hparse : parse lastLineText =
      .ok ⟨["a.ts"], [], [[⟨0, some ⟨0, maxIndex - 1, 0, none⟩⟩]]⟩ := by decide +kernel
  have hadd := Registry.addMap_of_parse hparse .empty "/app.js"
  obtain ⟨hiff, hresolve⟩ := resolvesExactly_iff lastLineText
  refine ⟨hiff.mpr fun m hm line column _ _ found hfound => ?_, _, hadd, ?_⟩
  · obtain rfl := Except.ok.inj (hparse.symm.trans hm)
    obtain ⟨mapping, hmapping, o, ho, hline, hcolumn⟩ := exists_mapping_of_lookup? hfound
    obtain ⟨mappings, hmappings, hmem⟩ := mem_line hmapping
    obtain rfl := List.mem_singleton.mp hmappings
    obtain rfl := List.mem_singleton.mp hmem
    obtain rfl := Option.some.inj ho
    rw [hline, hcolumn]
    decide
  · obtain ⟨m, hm, hplace⟩ := hresolve .empty _ "/app.js" hadd
    obtain rfl := Except.ok.inj (hparse.symm.trans hm)
    exact (hplace 1 1 le_rfl le_rfl).trans (by decide)

/-- A map to the largest line. -/
def farLineText : String := "[3,null,[\"a.ts\"],[],\"AA+/////HA\"]"

/-- A map with a section to the largest column. -/
def farColumnText : String :=
  "[3,null,[],[],\"\",[[[0,0],[3,null,[\"a.ts\"],[],\"AAA+/////H\"]]]]"

/-- **A text is registered, and resolving the first place fails.** -/
def FailsAtFirst (text : String) : Prop :=
  ∃ r, Registry.empty.addMap "/app.js" text = (true, r) ∧
    r.resolve "/app.js" 1 1 = .error .pastLargest

theorem FailsAtFirst.not_resolvesExactly {text : String} (h : FailsAtFirst text) :
    ¬ ResolvesExactly text := by
  obtain ⟨r, hadd, herror⟩ := h
  have hzero : 0 < maxIndex := by decide
  exact fun hexact => hexact.ne_error hadd hzero hzero .pastLargest herror

theorem failsAtFirst_of_parse {text : String} {m : SourceMap} {found : Lookup}
    (h : parse text = .ok m) (hfound : m.lookup? 0 0 = some found)
    (hmax : found.line = maxIndex ∨ found.column = maxIndex) : FailsAtFirst text := by
  refine ⟨_, Registry.addMap_of_parse h .empty "/app.js", ?_⟩
  rw [Registry.resolve_insertMap h .empty "/app.js" le_rfl le_rfl, Nat.sub_self, hfound]
  exact if_pos hmax

/-- **A map to the largest index is registered, and not resolved exactly**: resolving its first place
fails, be it for the line or for the column. -/
theorem farTexts_not_resolvesExactly :
    (FailsAtFirst farLineText ∧ ¬ ResolvesExactly farLineText) ∧
      FailsAtFirst farColumnText ∧ ¬ ResolvesExactly farColumnText := by
  have hline : parse farLineText =
      .ok ⟨["a.ts"], [], [[⟨0, some ⟨0, maxIndex, 0, none⟩⟩]]⟩ := by decide +kernel
  have hcolumn : parse farColumnText =
      .ok ⟨["a.ts"], [], [[⟨0, some ⟨0, 0, maxIndex, none⟩⟩]]⟩ := by decide +kernel
  have hfailsLine := failsAtFirst_of_parse hline rfl (.inl rfl)
  have hfailsColumn := failsAtFirst_of_parse hcolumn rfl (.inr rfl)
  exact ⟨⟨hfailsLine, hfailsLine.not_resolvesExactly⟩,
    hfailsColumn, hfailsColumn.not_resolvesExactly⟩

end SourceMap

end ConsoleLens
