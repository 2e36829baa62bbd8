import ConsoleLens.Proofs.Keyed
import ConsoleLens.SourceMap.Basic
import Mathlib.Data.List.Forall2

/-!
# Proofs/SourceMap/Line — a look-up is the nearest mapping of one line

Every line of a map that has been read is sorted by generated column (`sorted_ofDocument`), so a
search for where the columns pass the one asked for is well-founded, and **what it finds is the
nearest mapping of the line, the last one on equal columns** (`Sorted.lookup?_eq`).
-/

namespace ConsoleLens

open Keyed

/-! ## Reading without a fault -/

theorem bind_eq_ok {ε α β : Type} {x : Except ε α} {f : α → Except ε β} {b : β} :
    (x >>= f) = .ok b ↔ ∃ a, x = .ok a ∧ f a = .ok b := by
  cases x with
  | error e => exact ⟨fun h => (by cases h), fun ⟨_, h, _⟩ => (by cases h)⟩
  | ok a => exact ⟨fun h => ⟨a, rfl, h⟩, fun ⟨_, ha, h⟩ => (by cases ha; exact h)⟩

/-- A list is read without a fault when all of its items are. -/
theorem mapM_eq_ok {ε α β : Type} {f : α → Except ε β} {l : List α} {l' : List β} :
    l.mapM f = .ok l' ↔ List.Forall₂ (fun a b => f a = .ok b) l l' := by
  induction l generalizing l' with
  | nil =>
    rw [List.mapM_nil, List.forall₂_nil_left_iff]
    exact ⟨fun h => (by cases h; rfl), fun h => (by rw [h]; rfl)⟩
  | cons a rest ih =>
    rw [List.mapM_cons, bind_eq_ok, List.forall₂_cons_left_iff]
    constructor
    · rintro ⟨b, hb, h⟩
      obtain ⟨bs, hbs, h⟩ := bind_eq_ok.mp h
      cases h
      exact ⟨b, bs, hb, ih.mp hbs, rfl⟩
    · rintro ⟨b, bs, hb, hbs, rfl⟩
      exact ⟨b, hb, bind_eq_ok.mpr ⟨bs, ih.mpr hbs, rfl⟩⟩

namespace Mapping

/-- A sum is an index. -/
def IsIndex (n : Int) : Prop := 0 ≤ n ∧ n ≤ Json.maxIndex

theorem index_eq_ok_iff {n : Int} {i : Nat} : index n = .ok i ↔ IsIndex n ∧ n.toNat = i := by
  unfold index IsIndex
  split
  · next h => simp [h]
  · next h => simp [h]

/-- **What a segment comes to**: it has one, four or five fields, each of them makes an index of the
sum that it is added to, and the mapping is made of these sums. -/
theorem ofFields_cases {cursor cursor' : Cursor} {generated generated' : Int} {fields : List Int}
    {m : Mapping} (h : ofFields cursor generated fields = .ok (m, cursor', generated')) :
    (∃ g, fields = [g] ∧ IsIndex (generated + g) ∧ m = ⟨(generated + g).toNat, none⟩ ∧
      cursor' = cursor ∧ generated' = generated + g) ∨
    (∃ g s l c, fields = [g, s, l, c] ∧ (IsIndex (generated + g) ∧ IsIndex (cursor.source + s) ∧
        IsIndex (cursor.line + l) ∧ IsIndex (cursor.column + c)) ∧
      m = ⟨(generated + g).toNat, some ⟨(cursor.source + s).toNat, (cursor.line + l).toNat,
        (cursor.column + c).toNat, none⟩⟩ ∧
      cursor' = ⟨cursor.source + s, cursor.line + l, cursor.column + c, cursor.name⟩ ∧
      generated' = generated + g) ∨
    ∃ g s l c n, fields = [g, s, l, c, n] ∧ (IsIndex (generated + g) ∧
        IsIndex (cursor.source + s) ∧ IsIndex (cursor.line + l) ∧ IsIndex (cursor.column + c) ∧
        IsIndex (cursor.name + n)) ∧
      m = ⟨(generated + g).toNat, some ⟨(cursor.source + s).toNat, (cursor.line + l).toNat,
        (cursor.column + c).toNat, some (cursor.name + n).toNat⟩⟩ ∧
      cursor' = ⟨cursor.source + s, cursor.line + l, cursor.column + c, cursor.name + n⟩ ∧
      generated' = generated + g := by
  unfold ofFields at h
  split at h
  · next g =>
    simp only [bind_eq_ok, index_eq_ok_iff] at h
    obtain ⟨_, ⟨hg, rfl⟩, h⟩ := h
    cases h
    exact .inl ⟨g, rfl, hg, rfl, rfl, rfl⟩
  · next g s l c =>
    simp only [bind_eq_ok, index_eq_ok_iff] at h
    obtain ⟨_, ⟨hs, rfl⟩, _, ⟨hl, rfl⟩, _, ⟨hc, rfl⟩, _, ⟨hg, rfl⟩, h⟩ := h
    cases h
    exact .inr (.inl ⟨g, s, l, c, rfl, ⟨hg, hs, hl, hc⟩, rfl, rfl, rfl⟩)
  · next g s l c n =>
    simp only [bind_eq_ok, index_eq_ok_iff] at h
    obtain ⟨_, ⟨hn, rfl⟩, _, ⟨hs, rfl⟩, _, ⟨hl, rfl⟩, _, ⟨hc, rfl⟩, _, ⟨hg, rfl⟩, h⟩ := h
    cases h
    exact .inr (.inr ⟨g, s, l, c, n, rfl, ⟨hg, hs, hl, hc, hn⟩, rfl, rfl, rfl⟩)
  · cases h

/-- **What a line comes to**: the mapping of its first segment, and what is read from there on. -/
theorem ofSegments_cases {cursor cursor' : Cursor} {generated : Int} {segment : List Char}
    {rest : List (List Char)} {mappings : List Mapping}
    (h : ofSegments cursor generated (segment :: rest) = .ok (mappings, cursor')) :
    ∃ fields m cursor₁ generated₁ ms, Vlq.decode segment = .ok fields ∧
      ofFields cursor generated fields = .ok (m, cursor₁, generated₁) ∧
      ofSegments cursor₁ generated₁ rest = .ok (ms, cursor') ∧ mappings = m :: ms := by
  obtain ⟨fields, hfields, h⟩ := bind_eq_ok.mp h
  obtain ⟨⟨m, cursor₁, generated₁⟩, hm, h⟩ := bind_eq_ok.mp h
  obtain ⟨⟨ms, cursor₂⟩, hms, h⟩ := bind_eq_ok.mp h
  cases h
  refine ⟨fields, m, cursor₁, generated₁, ms, ?_, hm, hms, rfl⟩
  cases hread : Vlq.decode segment with
  | error e =>
    rw [hread] at hfields
    cases hfields
  | ok read =>
    rw [hread] at hfields
    exact congrArg _ (Except.ok.inj hfields)

/-- The order of generated columns is the one of `sort`. -/
theorem alike_sort (l : List Mapping) : Alike (·.generatedColumn) (sort l) l :=
  alike_mergeSort _ l

theorem pairwise_sort (l : List Mapping) :
    (sort l).Pairwise (·.generatedColumn ≤ ·.generatedColumn) :=
  pairwise_mergeSort _ l

/-- What is read of a line is sorted. -/
theorem ofLines_cons {cursor : Cursor} {line : List Char} {rest : List (List Char)}
    {lines : MappingLines} (h : ofLines cursor (line :: rest) = .ok lines) :
    ∃ mappings cursor' lines',
      ofSegments cursor 0 (Text.splitNonempty ',' line) = .ok (mappings, cursor') ∧
        ofLines cursor' rest = .ok lines' ∧ lines = sort mappings :: lines' := by
  obtain ⟨⟨mappings, cursor'⟩, hsegments, h⟩ := bind_eq_ok.mp h
  obtain ⟨lines', hrest, h⟩ := bind_eq_ok.mp h
  cases h
  exact ⟨mappings, cursor', lines', hsegments, hrest, rfl⟩

end Mapping

namespace SourceMap

/-! ## What is read of a document -/

/-- A map is read from a text by way of the record that the text holds. -/
theorem parse_eq_ok {text : String} {m : SourceMap} :
    parse text = .ok m ↔ ∃ d, MapDocument.read? text = some d ∧ ofDocument d = .ok m := by
  unfold parse
  cases MapDocument.read? text <;> simp

theorem exists_parse_eq_ok (text : String) (h : (parse text).toOption.isSome) :
    ∃ m, parse text = .ok m := by
  cases hm : parse text with
  | error e =>
    rw [hm] at h
    cases h
  | ok m => exact ⟨m, rfl⟩

/-- The sources of a plain document, under its root. -/
def rootedSources (d : MapDocument) : List String :=
  d.sources.map fun s => joinRoot (d.sourceRoot.getD "") (s.getD "")

/-- **A document is read as the mappings that it spells or as its sections put together.** -/
theorem ofDocument_cases {d : MapDocument} {m : SourceMap} (h : ofDocument d = .ok m) :
    (d.sections = none ∧ ∃ lines, Mapping.decode d.mappings.toList = .ok lines ∧
      m = ⟨rootedSources d, d.names, lines⟩) ∨
    ∃ sections combined, d.sections = some sections ∧ addSections {} sections = .ok combined ∧
      m = { combined with lines := combined.lines.map Mapping.sort } := by
  obtain ⟨version, sourceRoot, sources, names, mappings, sections⟩ := d
  cases sections with
  | none =>
    unfold ofDocument at h
    split at h
    · cases h
    · obtain ⟨lines, hlines, h⟩ := bind_eq_ok.mp h
      cases h
      exact .inl ⟨rfl, lines, hlines, rfl⟩
  | some sections =>
    unfold ofDocument at h
    split at h
    · cases h
    · obtain ⟨combined, hcombined, h⟩ := bind_eq_ok.mp h
      cases h
      exact .inr ⟨sections, combined, rfl, hcombined, rfl⟩

/-! ## The lines of a map -/

/-- The mappings of a line, none where the map has no such line. -/
def line (m : SourceMap) (n : Nat) : List Mapping := m.lines.getD n []

/-- What a mapping comes to through the tables of a map. -/
def resolve? (m : SourceMap) (mapping : Mapping) : Option Lookup := do
  let original ← mapping.original
  let source ← m.sources[original.source]?
  return { source, line := original.line, column := original.column,
           name := original.name.bind fun n => m.names[n]? }

/-- A mapping comes to nothing when it has no original place or its source is none of the map's. -/
theorem resolve?_eq_none_iff (m : SourceMap) (mapping : Mapping) :
    m.resolve? mapping = none ↔ ∀ o, mapping.original = some o → m.sources.length ≤ o.source := by
  obtain ⟨generated, _ | o⟩ := mapping
  · simp [resolve?]
  · simp only [resolve?, Option.bind_eq_bind, Option.bind_some, Option.bind_eq_none_iff,
      Option.some.injEq, forall_eq', reduceCtorEq, imp_false]
    rw [← List.getElem?_eq_none_iff, Option.eq_none_iff_forall_ne_some]

/-- A look-up is a search on one line. -/
theorem lookup?_eq_bind (m : SourceMap) (n column : Nat) :
    m.lookup? n column = (mappingAt? (m.line n) column).bind m.resolve? := by
  unfold lookup? line
  rw [List.getD_eq_getElem?_getD]
  cases m.lines[n]? <;> rfl

/-- **Every line is in the order of generated columns.** -/
def Sorted (m : SourceMap) : Prop :=
  ∀ n, (m.line n).Pairwise (·.generatedColumn ≤ ·.generatedColumn)

theorem sorted_of_forall_mem {m : SourceMap}
    (h : ∀ line ∈ m.lines, line.Pairwise (·.generatedColumn ≤ ·.generatedColumn)) : m.Sorted := by
  intro n
  rw [line, List.getD_eq_getElem?_getD]
  cases hn : m.lines[n]? with
  | none => exact .nil
  | some mappings => exact h mappings (List.mem_of_getElem? hn)

theorem pairwise_of_mem_ofLines : ∀ {texts : List (List Char)} {cursor : Mapping.Cursor}
    {lines : MappingLines}, Mapping.ofLines cursor texts = .ok lines →
      ∀ line ∈ lines, line.Pairwise (·.generatedColumn ≤ ·.generatedColumn)
  | [], _, _, h, _, hline => by
      cases h
      cases hline
  | _ :: _, _, _, h, line, hline => by
      obtain ⟨mappings, cursor', lines', -, hrest, rfl⟩ := Mapping.ofLines_cons h
      rcases List.mem_cons.mp hline with rfl | hline
      · exact Mapping.pairwise_sort mappings
      · exact pairwise_of_mem_ofLines hrest line hline

/-- **A map that has been read is sorted.** -/
theorem sorted_ofDocument {d : MapDocument} {m : SourceMap} (h : ofDocument d = .ok m) :
    m.Sorted := by
  refine sorted_of_forall_mem fun line hline => ?_
  rcases ofDocument_cases h with ⟨-, lines, hlines, rfl⟩ | ⟨sections, combined, -, -, rfl⟩
  · exact pairwise_of_mem_ofLines hlines line hline
  · obtain ⟨mappings, -, rfl⟩ := List.mem_map.mp hline
    exact Mapping.pairwise_sort mappings

/-- **A look-up comes to the nearest mapping of its line**, the last one on equal columns. -/
theorem Sorted.lookup?_eq {m : SourceMap} (h : m.Sorted) (n column : Nat) :
    m.lookup? n column =
      (nearest (·.generatedColumn) column (m.line n)).bind m.resolve? := by
  rw [lookup?_eq_bind, nearest_of_sorted (h n)]
  rfl

end SourceMap

end ConsoleLens
