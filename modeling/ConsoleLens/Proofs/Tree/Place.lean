import ConsoleLens.Proofs.Tree.Listing

/-!
# Proofs/Tree/Place — an entry is filed where its source says

The index of paths is made by filing and by nothing else, so two facts hold of every level of it
(`Placed`): **an index is filed under the segments of its entry's source**, and no level below
another is bare.  Together they say what is found, in terms of the entries alone:

    findPath? path finds a level with something filed
      ⟺  the source of some entry that shows starts with the segments of path   (`findPath?_iff`)

and hence that a path that has been found goes on being found while entries come.
-/

namespace ConsoleLens

namespace PathIndex

theorem mem_filedBelow {i : Nat} {cs : List (String × PathIndex)} :
    i ∈ filedBelow cs ↔ ∃ c ∈ cs, i ∈ c.2.filed := by
  induction cs with
  | nil => simp [filedBelow]
  | cons c rest ih => simp [filedBelow, ih]

/-- **Every index at a level or below is at its place**, and no child is bare.  `P i s` says that
the place of `i` is under the segments `s`, and `root` leads to the level. -/
inductive Placed (P : Nat → List String → Prop) : List String → PathIndex → Prop where
  | level {root : List String} {es : List Nat} {cs : List (String × PathIndex)}
      (hentries : ∀ i ∈ es, P i root) (hbelow : ∀ c ∈ cs, Placed P (root ++ [c.1]) c.2)
      (hfull : ∀ c ∈ cs, c.2.filed ≠ []) : Placed P root (.level es cs)

variable {P : Nat → List String → Prop}

theorem placed_empty (root : List String) : Placed P root empty :=
  .level (by simp) (by simp) (by simp)

theorem Placed.mono {Q : Nat → List String → Prop} (hPQ : ∀ i s, P i s → Q i s)
    {root : List String} {l : PathIndex} (h : Placed P root l) : Placed Q root l := by
  induction h with
  | level hentries _ hfull ih => exact .level (fun i hi => hPQ i _ (hentries i hi)) ih hfull

/-- **Filing an index under its place keeps all at their places.** -/
theorem Placed.insert {index : Nat} : ∀ {segments root : List String} {l : PathIndex},
    Placed P root l → P index (root ++ segments) → Placed P root (insert index segments l)
  | [], root, _, .level hentries hbelow hfull, hP => by
      rw [List.append_nil] at hP
      refine .level (fun i hi => ?_) hbelow hfull
      rcases List.mem_append.mp hi with hi | hi
      · exact hentries i hi
      · exact List.mem_singleton.mp hi ▸ hP
  | name :: rest, root, _, .level hentries hbelow hfull, hP => by
      rw [List.append_cons] at hP
      have hrest {l : PathIndex} (hl : Placed P (root ++ [name]) l) :
          Placed P (root ++ [name]) (PathIndex.insert index rest l) := Placed.insert hl hP
      have hfiled (l : PathIndex) : (PathIndex.insert index rest l).filed ≠ [] := fun hnil =>
        absurd ((filed_insert index rest l).mem_iff.mpr List.mem_cons_self) (by simp [hnil])
      refine .level hentries (fun c hc => ?_) fun c hc => ?_
      · rcases mem_modifyChild hc with hc | rfl | ⟨l, hl, rfl⟩
        · exact hbelow c hc
        · exact hrest (placed_empty _)
        · exact hrest (hbelow _ hl)
      · rcases mem_modifyChild hc with hc | rfl | ⟨l, -, rfl⟩
        · exact hfull c hc
        · exact hfiled empty
        · exact hfiled l

/-- **What is filed at a level or below is under the segments that lead there.** -/
theorem Placed.of_mem_filed {root : List String} {l : PathIndex} (h : Placed P root l) :
    ∀ i ∈ l.filed, ∃ more, P i (root ++ more) := by
  induction h with
  | @level root es cs hentries _ _ ih =>
    intro i hi
    rcases List.mem_append.mp hi with hi | hi
    · exact ⟨[], (List.append_nil root).symm ▸ hentries i hi⟩
    · obtain ⟨c, hc, hic⟩ := mem_filedBelow.mp hi
      obtain ⟨more, hmore⟩ := ih c hc i hic
      exact ⟨c.1 :: more, by rwa [List.append_cons]⟩

/-- The level that segments lead to is placed after them, and it is not bare. -/
theorem Placed.find? : ∀ {segments root : List String} {l l' : PathIndex}, Placed P root l →
    l.find? segments = some l' →
    Placed P (root ++ segments) l' ∧ (l.filed ≠ [] → l'.filed ≠ [])
  | [], root, _, _, h, heq => by
      obtain rfl := Option.some.inj heq
      exact ⟨(List.append_nil root).symm ▸ h, id⟩
  | name :: rest, root, .level es cs, _, .level _ hbelow hfull, heq => by
      obtain ⟨l, hl, hrest⟩ := Option.bind_eq_some_iff.mp heq
      have hmem : (name, l) ∈ cs := mem_of_lookup hl
      obtain ⟨hplaced, hfiled⟩ := (hbelow _ hmem).find? hrest
      exact ⟨(List.append_cons root name rest).symm ▸ hplaced, fun _ => hfiled (hfull _ hmem)⟩

/-- **An index is found again along its place**, where each index has one place. -/
theorem Placed.find?_of_mem (hP : ∀ i s s', P i s → P i s' → s = s') {n : Nat} :
    ∀ {segments root more : List String} {l : PathIndex} {i : Nat}, Placed P root l → l.Tidy n →
      i ∈ l.filed → P i (root ++ segments ++ more) →
      ∃ l', l.find? segments = some l' ∧ i ∈ l'.filed
  | [], _, _, l, _, _, _, hi, _ => ⟨l, rfl, hi⟩
  | name :: rest, root, more, .level es cs, i, .level hentries hbelow _,
      .level _ _ hnames htidy, hi, hPi => by
      rcases List.mem_append.mp hi with hi | hi
      · have hroot := hP i _ _ (hentries i hi) hPi
        simp at hroot
      · obtain ⟨c, hc, hic⟩ := mem_filedBelow.mp hi
        obtain ⟨more', hmore⟩ := (hbelow c hc).of_mem_filed i hic
        have hname : c.1 = name := by
          have hsame := hP i _ _ hmore hPi
          simp only [List.append_assoc, List.cons_append, List.append_cancel_left_eq,
            List.cons.injEq] at hsame
          exact hsame.1
        subst hname
        rw [List.append_cons] at hPi
        obtain ⟨l', hl', hmem⟩ := Placed.find?_of_mem hP (hbelow c hc) (htidy c hc) hic hPi
        refine ⟨l', ?_, hmem⟩
        rw [PathIndex.find?, lookup_of_mem hnames hc]
        exact hl'

end PathIndex

/-! ## The index of a tree -/

namespace LogTree

/-- The entry at an index has a source with these segments. -/
def IsAt (t : LogTree) (index : Nat) (segments : List String) : Prop :=
  ∃ s, t.stored[index]? = some s ∧ s.entry.originalPosition.segments = segments

/-- **Every entry that shows is filed under the segments of its source.** -/
def Located (t : LogTree) : Prop := t.paths.Placed t.IsAt []

theorem Located.file {t : LogTree} (h : Located t) (e : LogEntry) : Located (t.file e) := by
  refine (h.mono ?_).insert ⟨_, List.getElem?_concat_length, rfl⟩
  rintro i _ ⟨s, hs, rfl⟩
  have hi : i < t.stored.length := (List.getElem?_eq_some_iff.mp hs).1
  exact ⟨s, (List.getElem?_append_left hi).trans hs, rfl⟩

/-- The segments that lead to a level. -/
def segmentsOf (path : Option String) : List String := (path.map Text.segments).getD []

/-- The level at a path is placed after the path's segments. -/
theorem Located.placed_levelAt {t : LogTree} (h : Located t) {path : Option String}
    {l : PathIndex} (hl : t.levelAt? path = some l) : l.Placed t.IsAt (segmentsOf path) := by
  cases path with
  | none => exact Option.some.inj hl ▸ h
  | some path => exact (h.find? hl).1

/-- **A path is found exactly when an entry that shows lies there or below.** -/
theorem Located.findPath?_iff {t : LogTree} (h : Located t) (ht : t.Shelved) (path : String) :
    (∃ l, t.paths.findPath? path = some l ∧ ∃ i ∈ l.filed, ∃ s, t.stored[i]? = some s) ↔
      ∃ s ∈ t.stored, Text.segments path <+: s.entry.originalPosition.segments := by
  constructor
  · rintro ⟨l, hl, i, hi, -⟩
    obtain ⟨more, s, hs, hsegments⟩ := (h.find? hl).1.of_mem_filed i hi
    exact ⟨s, List.mem_of_getElem? hs, hsegments ▸ List.prefix_append _ _⟩
  · rintro ⟨s, hs, more, hmore⟩
    obtain ⟨i, hi, rfl⟩ := List.mem_iff_getElem.mp hs
    have hplace : t.IsAt i ([] ++ Text.segments path ++ more) :=
      ⟨t.stored[i], List.getElem?_eq_getElem hi, hmore.symm⟩
    have hone : ∀ i s s', t.IsAt i s → t.IsAt i s' → s = s' := by
      rintro i _ _ ⟨s, hs, rfl⟩ ⟨s', hs', rfl⟩
      rw [Option.some.inj (hs.symm.trans hs')]
    obtain ⟨l, hl, hmem⟩ := h.find?_of_mem hone ht.tidy
      (ht.filed.mem_iff.mpr (List.mem_range.mpr hi)) hplace
    exact ⟨l, hl, i, hmem, _, List.getElem?_eq_getElem hi⟩

end LogTree

/-- **The entries that show are in place**: numbered, and filed where they are found. -/
structure LogTree.InPlace (t : LogTree) : Prop where
  filed : t.Filed
  indexed : t.Indexed
  shelved : t.Shelved
  located : t.Located

/-- The names of the levels below a path are their own segments. -/
theorem LogTree.InPlace.named_levelAt {t : LogTree} (h : t.InPlace) {path : Option String}
    {l : PathIndex} (hl : t.levelAt? path = some l) : l.Named fun s => Text.segments s = [s] :=
  (h.indexed.named_levelAt hl).mono fun _ ⟨_, _, hs⟩ => Text.segments_of_mem_segments hs

theorem Browsing.inPlace_run (actions : List TreeAction) :
    (({} : Browsing).run actions).tree.InPlace where
  filed := filed_run actions
  indexed := indexed_run actions
  shelved := shelved_run actions
  located := filing_induction (P := LogTree.Located) (fun _ _ => PathIndex.placed_empty [])
    (fun _ e h => h.file e) (fun _ _ _ _ _ _ h => h) actions

end ConsoleLens
