import ConsoleLens.Proofs.SourceMap.Line

/-!
# Proofs/SourceMap/Union — a map put together from placed maps

A section is a map of its own and the place where it starts: a **placed map**.  On a line of the
generated file it has the mappings of one of its own lines, moved by the start's column on the first
line only; its indexes move behind the tables of the maps before it (`PlacedMap.lineAt`).

    line of the union  =  the placed maps' mappings on it, one map after the other

An indexed document is read as the union of its sections (`unites_sections`): **exactly that, up to
the order of unequal columns**, which no look-up sees.
-/

namespace ConsoleLens

open Keyed

/-- A mapping moved by columns, its indexes behind those of other tables. -/
def Mapping.moved (columns sources names : Nat) (m : Mapping) : Mapping where
  generatedColumn := m.generatedColumn + columns
  original := m.original.map fun o =>
    { o with source := o.source + sources, name := o.name.map (· + names) }

@[simp] theorem Mapping.generatedColumn_moved (columns sources names : Nat) (m : Mapping) :
    (m.moved columns sources names).generatedColumn = m.generatedColumn + columns := rfl

@[simp] theorem Mapping.moved_zero (m : Mapping) : m.moved 0 0 0 = m := by
  obtain ⟨generated, _ | ⟨source, line, column, _ | name⟩⟩ := m <;> rfl

theorem Mapping.moved_moved (c c' s s' n n' : Nat) (m : Mapping) :
    (m.moved c' s' n').moved c s n = m.moved (c + c') (s + s') (n + n') := by
  obtain ⟨generated, _ | ⟨source, line, column, _ | name⟩⟩ := m <;>
    simp [moved, Nat.add_comm, Nat.add_left_comm]

/-- **A map and the place where it starts.** -/
structure PlacedMap where
  start : SectionOffset
  map : SourceMap
  deriving DecidableEq

namespace PlacedMap

/-- A document read as a map that is placed. -/
def read (placed : SectionOffset × MapDocument) : Except MapFault PlacedMap := do
  return ⟨placed.1, ← SourceMap.ofDocument placed.2⟩

theorem read_eq_ok {placed : SectionOffset × MapDocument} {p : PlacedMap} :
    read placed = .ok p ↔ p.start = placed.1 ∧ SourceMap.ofDocument placed.2 = .ok p.map := by
  obtain ⟨start, map⟩ := p
  obtain ⟨offset, d⟩ := placed
  unfold read
  rw [bind_eq_ok]
  constructor
  · rintro ⟨m, hm, hp⟩
    cases hp
    exact ⟨rfl, hm⟩
  · rintro ⟨rfl, hm⟩
    exact ⟨map, hm, rfl⟩

/-- By how many columns the mappings on a line are moved: the start's, on the first line only. -/
def shift (p : PlacedMap) (line : Nat) : Nat := if line = p.start.line then p.start.column else 0

/-- **The mappings of a placed map on a line of the generated file**, its tables standing behind
others of these lengths. -/
def lineAt (p : PlacedMap) (sources names line : Nat) : List Mapping :=
  if line < p.start.line then []
  else (p.map.line (line - p.start.line)).map (·.moved (p.shift line) sources names)

/-- The sources of placed maps, one table after the other. -/
def sourcesOf (ps : List PlacedMap) : List String := ps.flatMap (·.map.sources)

/-- The names of placed maps, one table after the other. -/
def namesOf (ps : List PlacedMap) : List String := ps.flatMap (·.map.names)

theorem sourcesOf_append (ps qs : List PlacedMap) :
    sourcesOf (ps ++ qs) = sourcesOf ps ++ sourcesOf qs := List.flatMap_append

theorem namesOf_append (ps qs : List PlacedMap) :
    namesOf (ps ++ qs) = namesOf ps ++ namesOf qs := List.flatMap_append

/-- **The mappings of placed maps on a line**, one map after the other, each behind the tables of
those before it. -/
def unitedLine (line sources names : Nat) : List PlacedMap → List Mapping
  | [] => []
  | p :: rest => p.lineAt sources names line ++
      unitedLine line (sources + p.map.sources.length) (names + p.map.names.length) rest

theorem unitedLine_append (line sources names : Nat) (ps qs : List PlacedMap) :
    unitedLine line sources names (ps ++ qs) = unitedLine line sources names ps ++
      unitedLine line (sources + (sourcesOf ps).length) (names + (namesOf ps).length) qs := by
  induction ps generalizing sources names with
  | nil => rfl
  | cons p rest ih =>
    simp [unitedLine, ih, sourcesOf, namesOf, Nat.add_assoc]

end PlacedMap

/-- **A section read as a map that is placed where the section starts.** -/
def MapSection.read : MapSection → Except MapFault PlacedMap
  | ⟨_, none⟩ => .error .externalSection
  | ⟨offset, some d⟩ => PlacedMap.read (offset, d)

open PlacedMap

/-- **A map is the union of placed maps**: it has their tables, and on each line their mappings, but
for the order of unequal columns. -/
structure SourceMap.Unites (m : SourceMap) (ps : List PlacedMap) : Prop where
  sources : m.sources = sourcesOf ps
  names : m.names = namesOf ps
  line : ∀ n, Alike (·.generatedColumn) (m.line n) (unitedLine n 0 0 ps)

namespace SourceMap

/-! ## Lines of lines -/

theorem overlay_cons_cons (a b : List Mapping) (as bs : MappingLines) :
    overlay (a :: as) (b :: bs) = (a ++ b) :: overlay as bs := rfl

theorem getD_overlay : ∀ (as bs : MappingLines) (n : Nat),
    (overlay as bs).getD n [] = as.getD n [] ++ bs.getD n []
  | [], bs, n => by simp [overlay]
  | a :: as, [], n => by simp [overlay]
  | a :: as, b :: bs, 0 => rfl
  | a :: as, b :: bs, n + 1 => by
      rw [overlay_cons_cons, List.getD_cons_succ, List.getD_cons_succ, List.getD_cons_succ,
        getD_overlay as bs n]

theorem getD_lowered (k : Nat) (lines : MappingLines) (n : Nat) :
    (lowered k lines).getD n [] = if n < k then [] else lines.getD (n - k) [] := by
  unfold lowered
  cases lines with
  | nil => simp
  | cons first rest =>
    simp only [List.isEmpty_cons, Bool.false_eq_true, if_false, List.getD_eq_getElem?_getD]
    split
    · next h => simp [List.getElem?_append_left, h]
    · next h =>
      rw [List.getElem?_append_right (by simpa using h), List.length_replicate]

/-! ## Moving a section -/

/-- What is read without a fault item by item is the list of images. -/
theorem eq_map_of_mapM {ε α β : Type} {f : α → Except ε β} {g : α → β}
    (hf : ∀ a b, f a = .ok b → b = g a) {l : List α} {l' : List β} (h : l.mapM f = .ok l') :
    l' = l.map g := by
  have heach : List.Forall₂ (fun a b => g a = b) l l' :=
    (mapM_eq_ok.mp h).imp fun a b hab => (hf a b hab).symm
  rw [← List.forall₂_map_left_iff (R := Eq), List.forall₂_eq_eq_eq] at heach
  exact heach.symm

theorem shiftIndex_ok {offset n i : Nat} (h : shiftIndex offset n = .ok i) : i = n + offset := by
  unfold shiftIndex at h
  split at h
  · exact (Except.ok.inj h).symm
  · cases h

theorem shiftOriginal_ok {sources names : Nat} {o o' : Original}
    (h : shiftOriginal sources names o = .ok o') :
    o' = { o with source := o.source + sources, name := o.name.map (· + names) } := by
  obtain ⟨source, line, column, name⟩ := o
  obtain ⟨i, hi, h⟩ := bind_eq_ok.mp h
  obtain rfl := shiftIndex_ok hi
  cases name with
  | none =>
    cases h
    rfl
  | some n =>
    cases hn : shiftIndex names n with
    | error e =>
      simp only [hn] at h
      cases h
    | ok i =>
      simp only [hn] at h
      cases h
      rw [shiftIndex_ok hn]
      rfl

theorem shiftMapping_ok {offset : SectionOffset} {columns sources names : Nat} {m m' : Mapping}
    (h : shiftMapping offset columns sources names m = .ok m') :
    m' = m.moved columns sources names := by
  obtain ⟨generated, original⟩ := m
  unfold shiftMapping at h
  cases original with
  | none =>
    obtain ⟨original', horiginal, h⟩ := bind_eq_ok.mp h
    cases horiginal
    split at h
    · cases h
      rfl
    · cases h
  | some o =>
    obtain ⟨original', horiginal, h⟩ := bind_eq_ok.mp h
    cases ho : shiftOriginal sources names o with
    | error e =>
      simp only [ho] at horiginal
      cases horiginal
    | ok o' =>
      simp only [ho] at horiginal
      cases horiginal
      split at h
      · cases h
        rw [shiftOriginal_ok ho]
        rfl
      · cases h

/-- **The lines of a section are moved**, the first one to its column. -/
theorem getD_shiftLines {offset : SectionOffset} {sources names : Nat} {lines lines' : MappingLines}
    (h : shiftLines offset sources names lines = .ok lines') (n : Nat) :
    lines'.getD n [] = (lines.getD n []).map
      (·.moved (if n = 0 then offset.column else 0) sources names) := by
  cases lines with
  | nil =>
    cases h
    rfl
  | cons first rest =>
    obtain ⟨first', hfirst, h⟩ := bind_eq_ok.mp h
    obtain ⟨rest', hrest, h⟩ := bind_eq_ok.mp h
    cases h
    cases n with
    | zero => exact eq_map_of_mapM (fun _ _ => shiftMapping_ok) hfirst
    | succ n =>
      rw [eq_map_of_mapM (fun _ _ => eq_map_of_mapM fun _ _ => shiftMapping_ok) hrest]
      rw [List.getD_cons_succ, List.getD_cons_succ, if_neg (Nat.succ_ne_zero n),
        List.getD_eq_getElem?_getD, List.getD_eq_getElem?_getD, List.getElem?_map]
      cases rest[n]? <;> rfl

theorem tableOffset_ok {length n : Nat} (h : tableOffset length = .ok n) : n = length := by
  unfold tableOffset at h
  split at h
  · exact (Except.ok.inj h).symm
  · cases h

/-! ## Putting sections together -/

/-- The sections so far, put together but not sorted: their tables, and on each line exactly their
mappings. -/
structure Joins (m : SourceMap) (ps : List PlacedMap) : Prop where
  sources : m.sources = sourcesOf ps
  names : m.names = namesOf ps
  line : ∀ n, m.line n = unitedLine n 0 0 ps

theorem joins_nil : Joins {} [] := ⟨rfl, rfl, fun _ => rfl⟩

/-- **A section is joined to those before it.** -/
theorem Joins.addSection {combined combined' m : SourceMap} {ps : List PlacedMap}
    (h : combined.Joins ps) {offset : SectionOffset}
    (hadd : addSection combined offset m = .ok combined') :
    combined'.Joins (ps ++ [⟨offset, m⟩]) := by
  unfold SourceMap.addSection at hadd
  split at hadd
  · cases hadd
  · obtain ⟨-, -, hadd⟩ := bind_eq_ok.mp hadd
    obtain ⟨sourceOffset, hsource, hadd⟩ := bind_eq_ok.mp hadd
    obtain ⟨nameOffset, hname, hadd⟩ := bind_eq_ok.mp hadd
    obtain ⟨lines, hlines, hadd⟩ := bind_eq_ok.mp hadd
    cases hadd
    refine ⟨by simp [h.sources, sourcesOf], by simp [h.names, namesOf], fun n => ?_⟩
    rw [unitedLine_append, ← h.line n, ← h.sources, ← h.names]
    change (overlay combined.lines (lowered offset.line lines)).getD n [] = _
    rw [getD_overlay, getD_lowered, getD_shiftLines hlines, tableOffset_ok hsource,
      tableOffset_ok hname]
    simp only [unitedLine, lineAt, shift, SourceMap.line, Nat.zero_add, List.append_nil]
    split
    · rfl
    · next hn =>
      have hfirst : n - offset.line = 0 ↔ n = offset.line := by omega
      simp only [hfirst]

theorem addSections_ok : ∀ {sections : List MapSection} {combined m : SourceMap},
    addSections combined sections = .ok m →
      ∃ maps, sections.mapM MapSection.read = .ok maps ∧
        ∀ {ps}, combined.Joins ps → m.Joins (ps ++ maps)
  | [], _, _, h => by
      rw [addSections] at h
      cases h
      exact ⟨[], rfl, fun hps => by rwa [List.append_nil]⟩
  | ⟨_, none⟩ :: _, _, _, h => by
      rw [addSections] at h
      cases h
  | ⟨offset, some d⟩ :: rest, _, _, h => by
      rw [addSections] at h
      obtain ⟨first, hfirst, h⟩ := bind_eq_ok.mp h
      obtain ⟨combined', hadd, h⟩ := bind_eq_ok.mp h
      obtain ⟨maps, hmaps, hjoins⟩ := addSections_ok h
      have hread : MapSection.read ⟨offset, some d⟩ = .ok ⟨offset, first⟩ :=
        read_eq_ok.mpr ⟨rfl, hfirst⟩
      refine ⟨⟨offset, first⟩ :: maps, ?_, fun hps => ?_⟩
      · rw [List.mapM_cons, hread, hmaps]
        rfl
      · rw [List.append_cons]
        exact hjoins (hps.addSection hadd)

theorem line_map_sort (m : SourceMap) (n : Nat) :
    ({ m with lines := m.lines.map Mapping.sort } : SourceMap).line n =
      Mapping.sort (m.line n) := by
  simp only [line, List.getD_eq_getElem?_getD, List.getElem?_map]
  cases m.lines[n]? with
  | none => exact List.mergeSort_nil.symm
  | some mappings => rfl

/-- **An indexed document is read as the union of its sections.** -/
theorem unites_sections {d : MapDocument} {m : SourceMap} (h : ofDocument d = .ok m)
    {sections : List MapSection} (hs : d.sections = some sections) :
    ∃ maps, sections.mapM MapSection.read = .ok maps ∧ m.Unites maps := by
  rcases ofDocument_cases h with ⟨hnone, -⟩ | ⟨sections', combined, hs', hcombined, rfl⟩
  · cases hnone.symm.trans hs
  · cases hs.symm.trans hs'
    obtain ⟨maps, hmaps, hjoins⟩ := addSections_ok hcombined
    have hall : combined.Joins maps := hjoins joins_nil
    refine ⟨maps, hmaps, hall.sources, hall.names, fun n => ?_⟩
    rw [line_map_sort, ← hall.line n]
    exact Mapping.alike_sort _

end SourceMap

/-! ## Look-up -/

namespace PlacedMap

/-- **The mapping of placed maps that counts at a place**: of all that they have on the line, the
last one of the greatest column up to the one asked for. -/
def mappingAt? (ps : List PlacedMap) (line column : Nat) : Option Mapping :=
  nearest (·.generatedColumn) column (unitedLine line 0 0 ps)

/-- A look-up among placed maps, through the tables of all of them. -/
def lookup? (ps : List PlacedMap) (line column : Nat) : Option Lookup :=
  (mappingAt? ps line column).bind
    (SourceMap.resolve? { sources := sourcesOf ps, names := namesOf ps })

end PlacedMap

namespace SourceMap

/-- A union is looked up among its parts. -/
theorem Unites.lookup?_eq {m : SourceMap} {ps : List PlacedMap} (h : m.Unites ps)
    (hsorted : m.Sorted) (line column : Nat) :
    m.lookup? line column = PlacedMap.lookup? ps line column := by
  rw [hsorted.lookup?_eq, (h.line line).nearest_eq, PlacedMap.lookup?, PlacedMap.mappingAt?,
    ← h.sources, ← h.names]
  rfl

end SourceMap

end ConsoleLens
