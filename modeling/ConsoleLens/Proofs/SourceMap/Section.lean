import ConsoleLens.Proofs.SourceMap.Union

/-!
# Proofs/SourceMap/Section — what a look-up comes to on a line of one section

On a line where one section alone has mappings, a look-up finds the mapping that the section's own
map finds at the place counted from the section's start.  What the mapping comes to is another
matter: **its indexes are looked up in the section's tables and those of all later sections**
(`Unites.lookup?_eq_bind_extended`), because the tables are joined and an index that is past its own
is not told from one into the next.

So a look-up is the section's own exactly when the mapping does not stray into a later table
(`resolve?_extended_eq_iff`), and there are maps where it does (`strayText`).
-/

namespace ConsoleLens

open Keyed PlacedMap

namespace PlacedMap

/-- **Whether a placed map has mappings on a line** of the generated file. -/
def Covers (p : PlacedMap) (line : Nat) : Prop :=
  p.start.line ≤ line ∧ p.map.line (line - p.start.line) ≠ []

/-- **A place counted from the start of a placed map**, if it is not before it. -/
def relative? (p : PlacedMap) (line column : Nat) : Option (Nat × Nat) :=
  if p.start.line ≤ line ∧ p.shift line ≤ column then
    some (line - p.start.line, column - p.shift line)
  else none

/-- The mapping that the map by itself finds at a place. -/
def ownMapping? (p : PlacedMap) (line column : Nat) : Option Mapping :=
  (p.relative? line column).bind fun place => SourceMap.mappingAt? (p.map.line place.1) place.2

/-- **A look-up in the map by itself**, at the place counted from its start. -/
def ownLookup? (p : PlacedMap) (line column : Nat) : Option Lookup :=
  (p.relative? line column).bind fun place => p.map.lookup? place.1 place.2

theorem ownLookup?_eq_bind (p : PlacedMap) (line column : Nat) :
    p.ownLookup? line column = (p.ownMapping? line column).bind p.map.resolve? := by
  unfold ownLookup? ownMapping?
  cases p.relative? line column with
  | none => rfl
  | some place => exact p.map.lookup?_eq_bind place.1 place.2

/-- A map that does not cover a line has nothing on it. -/
theorem lineAt_of_not_covers {p : PlacedMap} {line : Nat} (h : ¬ p.Covers line) (s n : Nat) :
    p.lineAt s n line = [] := by
  unfold lineAt
  split
  · rfl
  · next hline =>
    have hempty : p.map.line (line - p.start.line) = [] :=
      Classical.not_not.mp fun hne => h ⟨Nat.le_of_not_lt hline, hne⟩
    rw [hempty, List.map_nil]

theorem unitedLine_of_not_covers {line : Nat} {ps : List PlacedMap}
    (h : ∀ p ∈ ps, ¬ p.Covers line) (s n : Nat) : unitedLine line s n ps = [] := by
  induction ps generalizing s n with
  | nil => rfl
  | cons p rest ih =>
    rw [unitedLine, lineAt_of_not_covers (h p List.mem_cons_self), List.nil_append]
    exact ih (fun q hq => h q (List.mem_cons_of_mem p hq)) _ _

/-- **The nearest of the moved mappings is the moved one that the map by itself finds.** -/
theorem nearest_lineAt {p : PlacedMap} (hsorted : p.map.Sorted) (s n line column : Nat) :
    nearest (·.generatedColumn) column (p.lineAt s n line) =
      (p.ownMapping? line column).map (·.moved (p.shift line) s n) := by
  unfold lineAt ownMapping? relative?
  by_cases hline : line < p.start.line
  · rw [if_pos hline, if_neg (by omega)]
    rfl
  · rw [if_neg hline, nearest_map]
    by_cases hcolumn : p.shift line ≤ column
    · have hback : nearest ((·.generatedColumn) ∘ (·.moved (p.shift line) s n)) column
          (p.map.line (line - p.start.line)) =
          nearest (·.generatedColumn) (column - p.shift line)
            (p.map.line (line - p.start.line)) := by
        refine nearest_congr (fun m _ => ?_) fun m _ m' _ => ?_
        · exact (Nat.le_sub_iff_add_le hcolumn).symm
        · exact Nat.add_le_add_iff_right
      rw [hback, nearest_of_sorted (hsorted _), if_pos ⟨by omega, hcolumn⟩]
      rfl
    · have hpast : ∀ m ∈ p.map.line (line - p.start.line),
          column < ((·.generatedColumn) ∘ (·.moved (p.shift line) s n)) m := fun m _ => by
        simp only [Function.comp_apply, Mapping.generatedColumn_moved]
        omega
      rw [nearest_eq_none hpast, if_neg (by omega)]
      rfl

end PlacedMap

namespace SourceMap

/-! ## Tables behind a map's own -/

/-- A map with the tables of later maps behind its own. -/
def extended (m : SourceMap) (later : List PlacedMap) : SourceMap :=
  { m with sources := m.sources ++ sourcesOf later, names := m.names ++ namesOf later }

/-- **A mapping strays from its map**: its source, or else its name, is past the map's own table and
within those of later maps. -/
def Strays (m : SourceMap) (later : List PlacedMap) (mapping : Mapping) : Prop :=
  ∃ o, mapping.original = some o ∧
    ((m.sources.length ≤ o.source ∧ o.source < m.sources.length + (sourcesOf later).length) ∨
      (o.source < m.sources.length ∧ ∃ n, o.name = some n ∧
        m.names.length ≤ n ∧ n < m.names.length + (namesOf later).length))

/-- Behind other tables, an index leads to where it led in its own. -/
theorem getElem?_append_add {α : Type} (before own : List α) (n : Nat) :
    (before ++ own)[n + before.length]? = own[n]? := by
  rw [List.getElem?_append_right (Nat.le_add_left _ _), Nat.add_sub_cancel]

/-- **What a moved mapping comes to in joined tables**: what it comes to in its own and the later
ones. -/
theorem resolve?_moved (m : SourceMap) (before later : List PlacedMap) (p : PlacedMap)
    (hsources : m.sources = sourcesOf (before ++ p :: later))
    (hnames : m.names = namesOf (before ++ p :: later)) (columns : Nat) (mapping : Mapping) :
    m.resolve? (mapping.moved columns (sourcesOf before).length (namesOf before).length) =
      (p.map.extended later).resolve? mapping := by
  have hsource (n : Nat) : m.sources[n + (sourcesOf before).length]? =
      (p.map.sources ++ sourcesOf later)[n]? := by
    rw [hsources, sourcesOf_append]
    exact getElem?_append_add _ _ n
  have hname (n : Nat) : m.names[n + (namesOf before).length]? =
      (p.map.names ++ namesOf later)[n]? := by
    rw [hnames, namesOf_append]
    exact getElem?_append_add _ _ n
  obtain ⟨generated, _ | ⟨source, line, column, name⟩⟩ := mapping
  · rfl
  · have hnames' : (name.map (· + (namesOf before).length)).bind (fun n => m.names[n]?) =
        name.bind fun n => (p.map.names ++ namesOf later)[n]? := by
      cases name with
      | none => rfl
      | some n => exact hname n
    simp only [resolve?, Mapping.moved, Option.map_some, extended, Option.bind_eq_bind,
      Option.bind_some, hsource, hnames']

/-- A table with another one behind it has the same at an index that is not in the other one. -/
theorem getElem?_append_eq_iff {α : Type} (own later : List α) (n : Nat) :
    (own ++ later)[n]? = own[n]? ↔ ¬ (own.length ≤ n ∧ n < own.length + later.length) := by
  by_cases hn : n < own.length
  · rw [List.getElem?_append_left hn]
    exact iff_of_true rfl (by omega)
  · rw [List.getElem?_append_right (Nat.le_of_not_lt hn),
      List.getElem?_eq_none (Nat.le_of_not_lt hn), List.getElem?_eq_none_iff]
    omega

/-- **Later tables change what a mapping comes to exactly when it strays into them.** -/
theorem resolve?_extended_eq_iff (m : SourceMap) (later : List PlacedMap) (mapping : Mapping) :
    (m.extended later).resolve? mapping = m.resolve? mapping ↔ ¬ m.Strays later mapping := by
  obtain ⟨generated, _ | ⟨source, line, column, name⟩⟩ := mapping
  · exact iff_of_true rfl (by rintro ⟨o, ho, -⟩; cases ho)
  · have hname : (name.bind fun n => (m.names ++ namesOf later)[n]?) =
        (name.bind fun n => m.names[n]?) ↔
          ¬ ∃ n, name = some n ∧ m.names.length ≤ n ∧
            n < m.names.length + (namesOf later).length := by
      cases name with
      | none => simp
      | some n => simpa using getElem?_append_eq_iff m.names (namesOf later) n
    by_cases hs : source < m.sources.length
    · have hkept : (m.sources ++ sourcesOf later)[source]? = m.sources[source]? :=
        List.getElem?_append_left hs
      simp only [resolve?, extended, Strays, Option.bind_eq_bind, Option.bind_some, hkept,
        List.getElem?_eq_getElem hs, Option.pure_def, Option.some.injEq, Lookup.mk.injEq,
        true_and, hname, exists_eq_left', not_le_of_gt hs, false_and, false_or, hs]
    · have hown : m.resolve? ⟨generated, some ⟨source, line, column, name⟩⟩ = none :=
        (m.resolve?_eq_none_iff _).mpr fun o ho => by
          cases ho
          exact Nat.le_of_not_lt hs
      rw [hown, resolve?_eq_none_iff]
      simp only [Strays, extended, Option.some.injEq, forall_eq', exists_eq_left', hs, false_and,
        or_false, List.length_append, Nat.le_of_not_lt hs, true_and, not_lt]

/-! ## A line of one section -/

/-- **Where one part of a union alone has mappings, a look-up finds the mapping that this part's map
finds**, but through its tables with the later ones behind them. -/
theorem Unites.lookup?_eq_bind_extended {m : SourceMap} {before later : List PlacedMap}
    {p : PlacedMap} (h : m.Unites (before ++ p :: later)) (hsorted : m.Sorted)
    (hp : p.map.Sorted) {line : Nat} (halone : ∀ q ∈ before ++ later, ¬ q.Covers line)
    (column : Nat) :
    m.lookup? line column =
      (p.ownMapping? line column).bind (p.map.extended later).resolve? := by
  have hbefore : ∀ q ∈ before, ¬ q.Covers line := fun q hq =>
    halone q (List.mem_append_left _ hq)
  have hlater : ∀ q ∈ later, ¬ q.Covers line := fun q hq =>
    halone q (List.mem_append_right _ hq)
  rw [h.lookup?_eq hsorted, PlacedMap.lookup?, PlacedMap.mappingAt?, unitedLine_append,
    unitedLine_of_not_covers hbefore, List.nil_append, unitedLine,
    unitedLine_of_not_covers hlater, List.append_nil, nearest_lineAt hp, Option.bind_map]
  refine Option.bind_congr fun mapping _ => ?_
  rw [Function.comp_apply, Nat.zero_add, Nat.zero_add]
  exact resolve?_moved _ before later p rfl rfl _ mapping

/-- The maps of the sections that a text holds, each placed where its section starts. -/
def sectionMaps? (text : String) : Option (List PlacedMap) := do
  let d ← MapDocument.read? text
  let sections ← d.sections
  (sections.mapM MapSection.read).toOption

/-- **Of the sections of a text, only the one with this map has mappings on a line**; the maps
`later` are those of the sections after it. -/
def OnlySection (text : String) (p : PlacedMap) (later : List PlacedMap) (line : Nat) : Prop :=
  ∃ before, sectionMaps? text = some (before ++ p :: later) ∧ ∀ q ∈ before ++ later, ¬ q.Covers line

theorem sectionMaps?_eq_some {text : String} {ps : List PlacedMap} :
    sectionMaps? text = some ps ↔ ∃ d sections, MapDocument.read? text = some d ∧
      d.sections = some sections ∧ sections.mapM MapSection.read = .ok ps := by
  have hok (x : Except MapFault (List PlacedMap)) : x.toOption = some ps ↔ x = .ok ps := by
    cases x <;> simp [Except.toOption]
  simp only [sectionMaps?, Option.bind_eq_bind, Option.bind_eq_some_iff, hok]
  exact ⟨fun ⟨d, hd, sections, hs⟩ => ⟨d, sections, hd, hs⟩,
    fun ⟨d, sections, hd, hs⟩ => ⟨d, hd, sections, hs⟩⟩

/-- The maps of sections are those that the map of a text is put together from. -/
theorem unites_sectionMaps {text : String} {m : SourceMap} (h : parse text = .ok m)
    {ps : List PlacedMap} (hps : sectionMaps? text = some ps) : m.Sorted ∧ m.Unites ps := by
  obtain ⟨d, hd, hread⟩ := parse_eq_ok.mp h
  obtain ⟨d', sections, hd', hs, hps⟩ := sectionMaps?_eq_some.mp hps
  cases hd.symm.trans hd'
  obtain ⟨maps, hmaps, hunites⟩ := unites_sections hread hs
  cases hmaps.symm.trans hps
  exact ⟨sorted_ofDocument hread, hunites⟩

theorem sorted_of_read {s : MapSection} {p : PlacedMap} (h : s.read = .ok p) : p.map.Sorted := by
  obtain ⟨offset, _ | d⟩ := s
  · cases h
  · exact sorted_ofDocument (read_eq_ok.mp h).2

/-- The map of a section is sorted, being read from a document of its own. -/
theorem sorted_sectionMap {text : String} {ps : List PlacedMap} (hps : sectionMaps? text = some ps)
    {p : PlacedMap} (hp : p ∈ ps) : p.map.Sorted := by
  obtain ⟨_, sections, -, -, hps⟩ := sectionMaps?_eq_some.mp hps
  have heach := mapM_eq_ok.mp hps
  obtain ⟨i, hi, rfl⟩ := List.getElem_of_mem hp
  exact sorted_of_read (heach.get (heach.length_eq ▸ hi) hi)

/-- **A line of one section is looked up in the section's own map, but through its tables with the
later ones behind them.**  This is a look-up in the section's map parsed alone exactly when the
mapping that is found does not stray into the later tables. -/
theorem lookup?_onlySection {text : String} {m : SourceMap} {p : PlacedMap}
    {later : List PlacedMap} {line : Nat} (h : parse text = .ok m)
    (halone : OnlySection text p later line) (column : Nat) :
    m.lookup? line column =
        (p.ownMapping? line column).bind (p.map.extended later).resolve? ∧
      (m.lookup? line column = p.ownLookup? line column ↔
        ∀ mapping, p.ownMapping? line column = some mapping → ¬ p.map.Strays later mapping) := by
  obtain ⟨before, hps, halone⟩ := halone
  obtain ⟨hsorted, hunites⟩ := unites_sectionMaps h hps
  have hp : p.map.Sorted := sorted_sectionMap hps (by simp)
  have hlookup := hunites.lookup?_eq_bind_extended hsorted hp halone column
  refine ⟨hlookup, ?_⟩
  rw [hlookup, ownLookup?_eq_bind]
  cases p.ownMapping? line column with
  | none => exact iff_of_true rfl fun _ hnone => by cases hnone
  | some mapping => simpa using resolve?_extended_eq_iff p.map later mapping

/-- Two sections, three lines apart. -/
def apartText : String :=
  "[3,null,[],[],\"\",[[[0,0],[3,null,[\"one.ts\"],[\"f\"],\"AAAAA\"]]," ++
    "[[3,10],[3,null,[\"two.ts\"],[\"g\"],\"AACAA\"]]]]"

theorem lookup?_onlySection_apart : ∃ m one two, parse apartText = .ok m ∧
    sectionMaps? apartText = some [one, two] ∧ m.lookup? 0 7 = one.ownLookup? 0 7 ∧
    m.lookup? 0 7 = some ⟨"one.ts", 0, 0, some "f"⟩ := by
  obtain ⟨m, hm⟩ := exists_parse_eq_ok apartText (by decide +kernel)
  have hmaps : sectionMaps? apartText = some
      [⟨⟨0, 0⟩, ⟨["one.ts"], ["f"], [[⟨0, some ⟨0, 0, 0, some 0⟩⟩]]⟩⟩,
        ⟨⟨3, 10⟩, ⟨["two.ts"], ["g"], [[⟨0, some ⟨0, 1, 0, some 0⟩⟩]]⟩⟩] := by decide +kernel
  have halone : OnlySection apartText _ _ 0 := ⟨[], hmaps, by simp [Covers]⟩
  obtain ⟨hlookup, hown⟩ := lookup?_onlySection hm halone 7
  refine ⟨m, _, _, hm, hmaps, hown.mpr fun mapping hmapping => ?_, hlookup.trans rfl⟩
  cases hmapping
  rintro ⟨o, ho, hpast⟩
  cases ho
  revert hpast
  decide

/-- **The sections of a text are kept apart**: on a line of one section, a look-up is one in the
section's map parsed alone. -/
def KeepsSectionsApart (text : String) : Prop :=
  ∀ m p later line column, parse text = .ok m → OnlySection text p later line →
    m.lookup? line column = p.ownLookup? line column

/-- Two sections, one line apart; the mapping of the first one has a source that it does not
give. -/
def strayText : String :=
  "[3,null,[],[],\"\",[[[0,0],[3,null,[\"one.ts\"],[],\"ACAA\"]]," ++
    "[[1,0],[3,null,[\"two.ts\"],[],\"AAAA\"]]]]"

/-- **The mapping of the first section is looked up in the source of the second one**, where the
section's own map has none. -/
theorem strayText_not_keepsSectionsApart : ¬ KeepsSectionsApart strayText := by
  intro h
  have hlookup : (parse strayText).toOption.map (·.lookup? 0 0) =
      some (some ⟨"two.ts", 0, 0, none⟩) := by decide +kernel
  have hmaps : sectionMaps? strayText = some
      [⟨⟨0, 0⟩, ⟨["one.ts"], [], [[⟨0, some ⟨1, 0, 0, none⟩⟩]]⟩⟩,
        ⟨⟨1, 0⟩, ⟨["two.ts"], [], [[⟨0, some ⟨0, 0, 0, none⟩⟩]]⟩⟩] := by decide +kernel
  have halone : OnlySection strayText _ _ 0 := ⟨[], hmaps, by simp [Covers]⟩
  cases hm : parse strayText with
  | error e =>
    rw [hm] at hlookup
    cases hlookup
  | ok m =>
    rw [hm] at hlookup
    have hfound : m.lookup? 0 0 = some ⟨"two.ts", 0, 0, none⟩ := Option.some.inj hlookup
    have hown := h m _ _ 0 0 hm halone
    rw [hfound] at hown
    cases hown

end SourceMap

end ConsoleLens
