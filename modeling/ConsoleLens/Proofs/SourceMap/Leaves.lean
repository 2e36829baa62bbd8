import ConsoleLens.Proofs.SourceMap.Union

/-!
# Proofs/SourceMap/Leaves — an indexed map is the union of its plain maps, however they are nested

A section may hold sections again.  Reading goes level by level: each level moves the lines, columns
and indexes of the one below and sorts anew.  The same map comes out in one go, from the plain maps
of the document in its order, each placed where its sections add up to:

    outer ▸ inner  =  lines added; the outer column added if the inner lines are none

Moving a union moves its parts (`lineAt_under`), and sorting again changes no run of equal columns
(`Alike`), so **a look-up is the nearest of all leaf mappings of its line** (`lookup?_leaves`).
-/

namespace ConsoleLens

open Keyed PlacedMap

/-! ## Leaves -/

/-- **The place of an inner start in the whole file**: the outer column counts only on the first
line of the outer section. -/
def SectionOffset.within (outer inner : SectionOffset) : SectionOffset where
  line := outer.line + inner.line
  column := if inner.line = 0 then outer.column + inner.column else inner.column

mutual

/-- **The plain maps of a document in its order**, each with the place where it starts. -/
def MapDocument.leaves : MapDocument → List (SectionOffset × MapDocument)
  | ⟨version, sourceRoot, sources, names, mappings, none⟩ =>
    [(⟨0, 0⟩, ⟨version, sourceRoot, sources, names, mappings, none⟩)]
  | ⟨_, _, _, _, _, some sections⟩ => MapSection.leaves sections

/-- The plain maps of sections. -/
def MapSection.leaves : List MapSection → List (SectionOffset × MapDocument)
  | [] => []
  | ⟨_, none⟩ :: rest => MapSection.leaves rest
  | ⟨offset, some d⟩ :: rest =>
    d.leaves.map (fun leaf => (offset.within leaf.1, leaf.2)) ++ MapSection.leaves rest

end

/-! ## Moving a union -/

namespace PlacedMap

/-- A placed map within a section. -/
def under (outer : SectionOffset) (p : PlacedMap) : PlacedMap := ⟨outer.within p.start, p.map⟩

@[simp] theorem sourcesOf_map_under (outer : SectionOffset) (ps : List PlacedMap) :
    sourcesOf (ps.map (under outer)) = sourcesOf ps := by
  simp [sourcesOf, List.flatMap_map, under]

@[simp] theorem namesOf_map_under (outer : SectionOffset) (ps : List PlacedMap) :
    namesOf (ps.map (under outer)) = namesOf ps := by
  simp [namesOf, List.flatMap_map, under]

theorem shift_under (outer : SectionOffset) {p : PlacedMap} {line : Nat}
    (h : ¬ line < p.start.line) :
    (if line = 0 then outer.column else 0) + p.shift line =
      (p.under outer).shift (outer.line + line) := by
  simp only [shift, under, SectionOffset.within, Nat.add_right_inj]
  by_cases hline : line = p.start.line
  · by_cases hzero : p.start.line = 0 <;> simp [hline, hzero]
  · have hpos : line ≠ 0 := by omega
    simp [hline, hpos]

/-- **To move what a map has on a line is to place the map further in.** -/
theorem lineAt_under (outer : SectionOffset) (p : PlacedMap) (line s n s' n' : Nat) :
    (p.lineAt s' n' line).map (·.moved (if line = 0 then outer.column else 0) s n) =
      (p.under outer).lineAt (s + s') (n + n') (outer.line + line) := by
  by_cases hline : line < p.start.line
  · have hline' : outer.line + line < (p.under outer).start.line := by
      simpa [under, SectionOffset.within] using hline
    rw [lineAt, lineAt, if_pos hline, if_pos hline']
    rfl
  · have hline' : ¬ outer.line + line < (p.under outer).start.line := by
      simpa [under, SectionOffset.within] using hline
    have hindex : outer.line + line - (p.under outer).start.line = line - p.start.line := by
      simp only [under, SectionOffset.within]
      omega
    rw [lineAt, lineAt, if_neg hline, if_neg hline', hindex, List.map_map,
      ← shift_under outer hline]
    exact List.map_congr_left fun m _ => m.moved_moved ..

theorem unitedLine_under (outer : SectionOffset) (line s n : Nat) (ps : List PlacedMap)
    (s' n' : Nat) :
    (unitedLine line s' n' ps).map (·.moved (if line = 0 then outer.column else 0) s n) =
      unitedLine (outer.line + line) (s + s') (n + n') (ps.map (under outer)) := by
  induction ps generalizing s' n' with
  | nil => rfl
  | cons p rest ih =>
    rw [unitedLine, List.map_append, lineAt_under, ih]
    simp only [List.map_cons, unitedLine, under, Nat.add_assoc]

/-- No map within a section has anything in front of it. -/
theorem unitedLine_under_of_lt {outer : SectionOffset} {line : Nat} (h : line < outer.line)
    (s n : Nat) (ps : List PlacedMap) : unitedLine line s n (ps.map (under outer)) = [] := by
  induction ps generalizing s n with
  | nil => rfl
  | cons p rest ih =>
    have hline : line < (p.under outer).start.line := by
      simp only [under, SectionOffset.within]
      omega
    rw [List.map_cons, unitedLine, lineAt, if_pos hline, ih, List.nil_append]

/-- **A placed union is the union of its parts, placed further in.** -/
theorem lineAt_alike {p : PlacedMap} {ps : List PlacedMap} (h : p.map.Unites ps)
    (s n line : Nat) :
    Alike (·.generatedColumn) (p.lineAt s n line)
      (unitedLine line s n (ps.map (under p.start))) := by
  by_cases hline : line < p.start.line
  · rw [lineAt, if_pos hline, unitedLine_under_of_lt hline]
    exact .refl _ _
  · have hback : p.start.line + (line - p.start.line) = line := by omega
    have hfirst : line - p.start.line = 0 ↔ line = p.start.line := by omega
    have hmoved := unitedLine_under p.start (line - p.start.line) s n ps 0 0
    rw [hback] at hmoved
    rw [lineAt, if_neg hline, ← Nat.add_zero s, ← Nat.add_zero n, ← hmoved]
    simp only [shift, hfirst, Nat.add_zero]
    exact (h.line _).map fun a b => by simp

end PlacedMap

/-! ## Reading the leaves -/

namespace SourceMap

/-- A map is the union of itself. -/
theorem unites_self (m : SourceMap) : m.Unites [⟨⟨0, 0⟩, m⟩] := by
  refine ⟨by simp [sourcesOf], by simp [namesOf], fun n => ?_⟩
  have hline : unitedLine n 0 0 [⟨⟨0, 0⟩, m⟩] = m.line n := by
    simp [unitedLine, lineAt, shift]
  rw [hline]
  exact .refl _ _

mutual

theorem exists_leaves : ∀ (d : MapDocument) {m : SourceMap}, ofDocument d = .ok m →
    ∃ maps, List.Forall₂ (PlacedMap.read · = .ok ·) d.leaves maps ∧ m.Unites maps
  | ⟨version, sourceRoot, sources, names, mappings, none⟩, m, h => by
      refine ⟨[⟨⟨0, 0⟩, m⟩], ?_, unites_self m⟩
      rw [MapDocument.leaves]
      exact .cons (read_eq_ok.mpr ⟨rfl, h⟩) .nil
  | ⟨version, sourceRoot, sources, names, mappings, some sections⟩, m, h => by
      obtain ⟨maps, hmaps, hunites⟩ := unites_sections h rfl
      obtain ⟨leaves, hleaves, hsources, hnames, hline⟩ :=
        exists_leaves_sections sections (mapM_eq_ok.mp hmaps)
      rw [MapDocument.leaves]
      exact ⟨leaves, hleaves, hunites.sources.trans hsources, hunites.names.trans hnames,
        fun n => (hunites.line n).trans (hline n 0 0)⟩

theorem exists_leaves_sections : ∀ (sections : List MapSection) {maps : List PlacedMap},
    List.Forall₂ (MapSection.read · = .ok ·) sections maps →
      ∃ leaves, List.Forall₂ (PlacedMap.read · = .ok ·) (MapSection.leaves sections) leaves ∧
        sourcesOf maps = sourcesOf leaves ∧ namesOf maps = namesOf leaves ∧
        ∀ line s n, Alike (·.generatedColumn) (unitedLine line s n maps)
          (unitedLine line s n leaves)
  | [], _, .nil => ⟨[], .nil, rfl, rfl, fun _ _ _ => .refl _ _⟩
  | ⟨_, none⟩ :: _, _, .cons hfirst _ => by cases hfirst
  | ⟨_, some d⟩ :: rest, ⟨offset, m⟩ :: maps, .cons hfirst hrest => by
      obtain ⟨rfl, hread⟩ := read_eq_ok.mp hfirst
      obtain ⟨first, hfirst, hunites⟩ := exists_leaves d hread
      obtain ⟨leaves, hleaves, hsources, hnames, hline⟩ := exists_leaves_sections rest hrest
      refine ⟨first.map (under offset) ++ leaves, ?_, ?_, ?_, fun line s n => ?_⟩
      · rw [MapSection.leaves]
        refine List.rel_append ?_ hleaves
        refine List.forall₂_map_left_iff.mpr (List.forall₂_map_right_iff.mpr ?_)
        refine hfirst.imp fun leaf p hp => read_eq_ok.mpr ?_
        exact (read_eq_ok.mp hp).imp_left (congrArg offset.within)
      · rw [sourcesOf_append, sourcesOf_map_under, ← hsources, ← hunites.sources]
        rfl
      · rw [namesOf_append, namesOf_map_under, ← hnames, ← hunites.names]
        rfl
      · rw [unitedLine, unitedLine_append, sourcesOf_map_under, namesOf_map_under,
          ← hunites.sources, ← hunites.names]
        exact (lineAt_alike hunites s n line).append (hline line _ _)

end

/-! ## Look-up -/

/-- The plain maps that a text holds, each placed where its sections add up to. -/
def leafMaps? (text : String) : Option (List PlacedMap) := do
  let d ← MapDocument.read? text
  (d.leaves.mapM PlacedMap.read).toOption

/-- **A map, however its sections are nested, is its plain maps put side by side.** -/
theorem lookup?_leaves {text : String} {m : SourceMap} (h : parse text = .ok m) :
    ∃ leaves, leafMaps? text = some leaves ∧ m.sources = sourcesOf leaves ∧ ∀ line column,
      m.lookup? line column = PlacedMap.lookup? leaves line column ∧
      (m.lookup? line column = none ↔
        ∀ mapping, PlacedMap.mappingAt? leaves line column = some mapping →
          ∀ o, mapping.original = some o → m.sources.length ≤ o.source) := by
  obtain ⟨d, hd, hread⟩ := parse_eq_ok.mp h
  obtain ⟨leaves, hleaves, hunites⟩ := exists_leaves d hread
  have hmaps : leafMaps? text = some leaves := by
    rw [leafMaps?, hd, Option.bind_eq_bind, Option.bind_some, mapM_eq_ok.mpr hleaves]
    rfl
  refine ⟨leaves, hmaps, hunites.sources, fun line column => ?_⟩
  have hlookup := hunites.lookup?_eq (sorted_ofDocument hread) line column
  refine ⟨hlookup, ?_⟩
  rw [hlookup, PlacedMap.lookup?, Option.bind_eq_none_iff]
  simp only [resolve?_eq_none_iff, hunites.sources]

/-- Two maps in a section that starts past the first column; the second one starts on a later line
of the section. -/
def nestedText : String :=
  "[3,null,[],[],\"\",[[[2,5],[3,null,[],[],\"\",[" ++
    "[[0,3],[3,null,[\"a.ts\"],[\"f\"],\"AAAAA\"]]," ++
    "[[1,4],[3,null,[\"b.ts\"],[],\"AAAA\"]]]]]]]"

theorem lookup?_leaves_nested : ∃ m a b, parse nestedText = .ok m ∧
    leafMaps? nestedText = some [⟨⟨2, 8⟩, a⟩, ⟨⟨3, 4⟩, b⟩] ∧ m.sources = ["a.ts", "b.ts"] ∧
    m.lookup? 2 8 = some ⟨"a.ts", 0, 0, some "f"⟩ ∧ m.lookup? 2 7 = none ∧
    m.lookup? 3 4 = some ⟨"b.ts", 0, 0, none⟩ := by
  obtain ⟨m, hm⟩ := exists_parse_eq_ok nestedText (by decide +kernel)
  obtain ⟨leaves, hleaves, hsources, hlookup⟩ := lookup?_leaves hm
  have hmaps : leafMaps? nestedText = some
      [⟨⟨2, 8⟩, ⟨["a.ts"], ["f"], [[⟨0, some ⟨0, 0, 0, some 0⟩⟩]]⟩⟩,
        ⟨⟨3, 4⟩, ⟨["b.ts"], [], [[⟨0, some ⟨0, 0, 0, none⟩⟩]]⟩⟩] := by decide +kernel
  cases hleaves.symm.trans hmaps
  refine ⟨m, _, _, hm, hmaps, hsources, (hlookup 2 8).1.trans ?_, (hlookup 2 7).1.trans ?_,
    (hlookup 3 4).1.trans ?_⟩
  all_goals decide +kernel

end SourceMap

end ConsoleLens
