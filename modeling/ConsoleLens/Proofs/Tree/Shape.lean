import ConsoleLens.Proofs.Text.Bytes
import ConsoleLens.Proofs.Tree.Place
import ConsoleLens.Proofs.Tree.Walk
import Mathlib.Data.List.Sort

/-!
# Proofs/Tree/Shape — the groups of a level depend on nothing but paths

Insertions make levels in any order and put any indexes at them.  What can be told from outside of
an index of paths, its indexes apart, is which levels are found and which of these hold entries: its
**shape**.

    paths of insertions ──▸ shape ──▸ names below a level, and what is merged ──▸ groups

A level is found where the path of an insertion leads or passes, and it holds entries where one ends
(`isSome_find?_ofFiles`, `isEmpty_entries_ofFiles`), so the shape is that of the set of the paths.
Merging asks whether a level holds entries and what its only child is, which is told by the shape
(`SameShape.merges`); so **levels of one shape have the same groups** (`SameShape.groups_eq`), in the
order of the names that come next in the paths.
-/

namespace ConsoleLens

namespace PathIndex

/-! ## Shapes -/

/-- **Two levels have one shape**: the same levels are found below them, and the same of those hold
entries. -/
def SameShape (l l' : PathIndex) : Prop :=
  ∀ names, (l.find? names).map (·.entries.isEmpty) = (l'.find? names).map (·.entries.isEmpty)

/-- The names of the levels right below a level. -/
def names (l : PathIndex) : List String := l.children.map Prod.fst

theorem mem_names_iff {l : PathIndex} {name : String} :
    name ∈ l.names ↔ (l.find? [name]).isSome := by
  obtain ⟨es, cs⟩ := l
  have hfind : (level es cs).find? [name] = cs.lookup name := by
    rw [find?]
    cases cs.lookup name <;> rfl
  rw [hfind, List.lookup_isSome_iff, names, List.mem_map]
  simp only [beq_iff_eq]
  exact exists_congr fun c => and_congr_right fun _ => eq_comm

variable {l l' : PathIndex}

theorem Ascending.pairwise_names (h : Ascending l) : l.names.Pairwise (· < ·) := by
  obtain ⟨hnames, -⟩ := h
  exact List.pairwise_map.mpr hnames

namespace SameShape

theorem symm (h : SameShape l l') : SameShape l' l := fun names => (h names).symm

theorem isSome_eq (h : SameShape l l') (names : List String) :
    (l.find? names).isSome = (l'.find? names).isSome := by
  rw [← Option.isSome_map, h names, Option.isSome_map]

theorem isEmpty_entries (h : SameShape l l') : l.entries.isEmpty = l'.entries.isEmpty :=
  Option.some.inj (h [])

/-- A level that is found below one is found below the other, with the same shape. -/
theorem find? (h : SameShape l l') {names : List String} {m : PathIndex}
    (hm : l.find? names = some m) : ∃ m', l'.find? names = some m' ∧ SameShape m m' := by
  have hsome := h.isSome_eq names
  rw [hm] at hsome
  obtain ⟨m', hm'⟩ := Option.isSome_iff_exists.mp hsome.symm
  refine ⟨m', hm', fun more => ?_⟩
  have hmore := h (names ++ more)
  rwa [find?_append, find?_append, hm, hm'] at hmore

/-- What levels of one shape have in common, those that are found under the same names have, too. -/
theorem map_find? {β : Type} {f : PathIndex → β}
    (hf : ∀ {m m' : PathIndex}, SameShape m m' → Ascending m → Ascending m' → f m = f m')
    (h : SameShape l l') (hl : Ascending l) (hl' : Ascending l') (names : List String) :
    (l.find? names).map f = (l'.find? names).map f := by
  cases hm : l.find? names with
  | none => rw [(Option.isSome_eq_isSome.mp (h.isSome_eq names)).mp hm]
  | some m =>
    obtain ⟨m', hm', hshape⟩ := h.find? hm
    rw [hm', Option.map_some, Option.map_some, hf hshape (hl.find? hm) (hl'.find? hm')]

/-- **The levels below have the same names**, in the same order. -/
theorem names_eq (h : SameShape l l') (hl : Ascending l) (hl' : Ascending l') :
    l.names = l'.names := by
  refine hl.pairwise_names.eq_of_mem_iff hl'.pairwise_names fun name => ?_
  rw [mem_names_iff, mem_names_iff, h.isSome_eq]

end SameShape

/-! ## Groups -/

/-- A level is merged with its only child, which is a directory. -/
def MergesWith (l : PathIndex) (name : String) (child : PathIndex) : Prop :=
  l = .level [] [(name, child)] ∧ child.names ≠ []

theorem MergesWith.compact_eq {name : String} {child : PathIndex} (h : l.MergesWith name child)
    (path label : String) :
    l.compact path label = child.compact (path ++ "/" ++ name) (label ++ "/" ++ name) := by
  obtain ⟨rfl, hchild⟩ := h
  obtain ⟨es, _ | ⟨c, cs⟩⟩ := child
  · exact absurd rfl hchild
  · rw [compact]

theorem compact_of_not_merges (h : ∀ name child, ¬ l.MergesWith name child) (path label : String) :
    l.compact path label = ⟨path, label⟩ := by
  unfold compact
  split
  · next name es c cs => exact absurd ⟨rfl, List.cons_ne_nil _ _⟩ (h name (.level es (c :: cs)))
  · rfl

/-- **Levels of one shape are merged alike.** -/
theorem SameShape.merges (h : SameShape l l') (hl : Ascending l) (hl' : Ascending l')
    {name : String} {child : PathIndex} (hmerges : l.MergesWith name child) :
    ∃ child', l'.MergesWith name child' ∧ SameShape child child' ∧ Ascending child ∧
      Ascending child' := by
  have hnames := h.names_eq hl hl'
  have hentries := h.isEmpty_entries
  obtain ⟨rfl, hne⟩ := hmerges
  have hchild : (level [] [(name, child)]).find? [name] = some child := by
    rw [PathIndex.find?, List.lookup_cons_self]
    rfl
  obtain ⟨child', hchild', hshape⟩ := h.find? hchild
  have hasc := hl.find? hchild
  have hasc' := hl'.find? hchild'
  obtain ⟨es', cs'⟩ := l'
  obtain ⟨c', rfl, hc'⟩ := List.map_eq_singleton_iff.mp hnames.symm
  obtain rfl := List.mem_singleton.mp (mem_children_of_find? hchild')
  obtain rfl := List.isEmpty_iff.mp hentries.symm
  exact ⟨child', ⟨rfl, hshape.names_eq hasc hasc' ▸ hne⟩, hshape, hasc, hasc'⟩

theorem SameShape.compact_eq (h : SameShape l l') (hl : Ascending l) (hl' : Ascending l')
    (path label : String) : l.compact path label = l'.compact path label := by
  fun_induction compact path label l generalizing l' with
  | case1 path label name es c cs ih =>
    have hmerges : MergesWith (.level [] [(name, .level es (c :: cs))]) name (.level es (c :: cs)) :=
      ⟨rfl, List.cons_ne_nil _ _⟩
    obtain ⟨child', hmerges', hshape, hasc, hasc'⟩ := h.merges hl hl' hmerges
    rw [hmerges'.compact_eq]
    exact ih hshape hasc hasc'
  | case2 l path label hnot =>
    refine (compact_of_not_merges (fun name child hmerges' => ?_) path label).symm
    obtain ⟨⟨es, cs⟩, ⟨heq, hne⟩, -⟩ := h.symm.merges hl' hl hmerges'
    cases cs with
    | nil => exact hne rfl
    | cons c cs => exact hnot name es c cs heq

/-- The groups of a level, by the names below it. -/
theorem Ascending.groups_eq (h : Ascending l) (path : Option String) :
    l.groups path = l.names.filterMap fun name =>
      (l.find? [name]).map (compact (childPath path name) name) := by
  obtain ⟨hnames, -⟩ := h
  rw [names, List.filterMap_map, groups, children, ← List.filterMap_eq_map]
  refine List.filterMap_congr fun c hc => ?_
  rw [Function.comp_apply, Function.comp_apply, PathIndex.find?, lookup_of_mem hnames hc]
  rfl

/-- **Levels of one shape have the same groups.** -/
theorem SameShape.groups_eq (h : SameShape l l') (hl : Ascending l) (hl' : Ascending l')
    (path : Option String) : l.groups path = l'.groups path := by
  rw [hl.groups_eq, hl'.groups_eq, h.names_eq hl hl']
  refine List.filterMap_congr fun name _ => ?_
  exact h.map_find? (fun hshape hm hm' => hshape.compact_eq hm hm' _ _) hl hl' [name]

/-! ## The first segment of a label -/

/-- **A text starts with a segment**: it is the segment, or goes on with a slash after it. -/
def StartsWith (name text : String) : Prop := text = name ∨ ∃ more, text = name ++ "/" ++ more

theorem startsWith_compact (path label : String) (l : PathIndex) :
    StartsWith label (l.compact path label).label := by
  fun_induction compact path label l with
  | case1 path label name es c cs ih =>
    rcases ih with heq | ⟨more, heq⟩
    · exact .inr ⟨name, heq⟩
    · refine .inr ⟨name ++ "/" ++ more, ?_⟩
      simpa only [String.append_assoc] using heq
  | case2 => exact .inl rfl

/-- **Each group's label starts with the name of a level**, one group for each, in order. -/
theorem forall₂_groups (l : PathIndex) (path : Option String) :
    List.Forall₂ (fun name g => StartsWith name g.label) l.names (l.groups path) := by
  rw [names, groups, List.forall₂_map_left_iff, List.forall₂_map_right_iff, List.forall₂_same]
  exact fun c _ => startsWith_compact (childPath path c.1) c.1 c.2

/-- What stands before the first slash of a label. -/
def firstSegment (g : PathBranch) : String := String.ofList (g.label.toList.takeWhile (· ≠ '/'))

theorem firstSegment_eq {name : String} {g : PathBranch} (hname : '/' ∉ name.toList)
    (h : StartsWith name g.label) : firstSegment g = name := by
  have hkept : ∀ c ∈ name.toList, decide (c ≠ '/') = true := fun c hc =>
    decide_eq_true fun heq => hname (heq ▸ hc)
  rw [firstSegment]
  rcases h with heq | ⟨more, heq⟩
  · rw [heq, List.takeWhile_eq_self_iff.mpr hkept, String.ofList_toList]
  · rw [heq, String.toList_append, String.toList_append, List.append_assoc,
      List.takeWhile_append_of_pos hkept]
    simp

/-- Without slashes in the names, they are what the labels start with. -/
theorem map_firstSegment (h : ∀ name ∈ l.names, '/' ∉ name.toList) (path : Option String) :
    (l.groups path).map firstSegment = l.names := by
  rw [groups, List.map_map, names]
  refine List.map_congr_left fun c hc => firstSegment_eq (h c.1 (List.mem_map_of_mem hc)) ?_
  exact startsWith_compact (childPath path c.1) c.1 c.2

/-! ## What insertions make -/

/-- What is at a level itself is filed there under no more names. -/
theorem mem_entries_iff {i : Nat} : i ∈ l.entries ↔ ([], i) ∈ l.places := by
  obtain ⟨es, cs⟩ := l
  have hbelow : ([], i) ∉ placesBelow cs := by
    rw [placesBelow_eq, List.mem_flatMap]
    rintro ⟨c, -, hc⟩
    obtain ⟨p, -, heq⟩ := List.mem_map.mp hc
    exact List.cons_ne_nil _ _ (Prod.mk.inj heq).1
  rw [places, List.mem_append, or_iff_left hbelow, List.mem_map]
  simp [entries]

/-- A level is found on the way to all that is filed. -/
theorem Ascending.find?_of_mem_places : ∀ {names more : List String} {l : PathIndex} {i : Nat},
    Ascending l → (names ++ more, i) ∈ l.places → ∃ l', l.find? names = some l'
  | [], _, l, _, _, _ => ⟨l, rfl⟩
  | name :: rest, more, .level es cs, i, .level hnames hbelow, hi => by
      have hhere : (name :: (rest ++ more), i) ∉ es.map (([], ·) : Nat → List String × Nat) := by
        simp
      rw [List.cons_append, places, List.mem_append, or_iff_right hhere, placesBelow_eq,
        List.mem_flatMap] at hi
      obtain ⟨c, hc, hic⟩ := hi
      obtain ⟨⟨path, j⟩, hplace, heq⟩ := List.mem_map.mp hic
      obtain ⟨hpath, rfl⟩ := Prod.mk.inj heq
      obtain ⟨rfl, rfl⟩ := List.cons.inj hpath
      obtain ⟨l', hl'⟩ := (hbelow c hc).find?_of_mem_places hplace
      refine ⟨l', ?_⟩
      rw [PathIndex.find?, lookup_of_mem hnames hc]
      exact hl'

/-- What is filed at a level or below is filed under more names above it. -/
theorem Ascending.mem_places_find? {names more : List String} {i : Nat} (h : Ascending l)
    (hl' : l.find? names = some l') : (more, i) ∈ l'.places ↔ (names ++ more, i) ∈ l.places := by
  have hfilter := filter_places h hl'
  have hmem : (names ++ more, i) ∈ l.places ↔
      (names ++ more, i) ∈ l.places.filter (names <+: ·.1) := by
    simp [List.mem_filter]
  rw [hmem, hfilter, List.mem_map]
  constructor
  · exact fun hplace => ⟨(more, i), hplace, rfl⟩
  · rintro ⟨⟨more', j⟩, hplace, heq⟩
    obtain ⟨hnames, rfl⟩ := Prod.mk.inj heq
    rwa [← List.append_cancel_left hnames]

theorem placed_ofFiles (files : List (List String × Nat)) :
    (ofFiles files).Placed (fun _ _ => True) [] := by
  induction files using List.reverseRecOn with
  | nil => exact placed_empty []
  | append_singleton files f ih =>
    rw [ofFiles_concat]
    exact ih.insert trivial

/-- Below the top, no level is bare. -/
theorem Placed.filed_ne_nil {P : Nat → List String → Prop} {root : List String} :
    ∀ {names : List String}, names ≠ [] → Placed P root l → l.find? names = some l' →
      l'.filed ≠ []
  | [], hne, _, _ => absurd rfl hne
  | _ :: _, _, .level _ hbelow hfull, hl' => by
      obtain ⟨child, hchild, hrest⟩ := Option.bind_eq_some_iff.mp hl'
      have hmem := mem_of_lookup hchild
      exact ((hbelow _ hmem).find? hrest).2 (hfull _ hmem)

variable {files files' : List (List String × Nat)}

/-- **A level is found where the path of an insertion leads or passes**, and so is the top. -/
theorem isSome_find?_ofFiles {names : List String} : ((ofFiles files).find? names).isSome ↔
    names = [] ∨ ∃ segments ∈ files.map Prod.fst, names <+: segments := by
  have hroot := ascending_ofFiles files
  rw [Option.isSome_iff_exists]
  constructor
  · rintro ⟨l, hl⟩
    refine or_iff_not_imp_left.mpr fun hne => ?_
    obtain ⟨i, hi⟩ := List.exists_mem_of_ne_nil _ ((placed_ofFiles files).filed_ne_nil hne hl)
    rw [← map_snd_places] at hi
    obtain ⟨⟨more, _⟩, hplace, rfl⟩ := List.mem_map.mp hi
    have hfile := (places_ofFiles files).mem_iff.mp ((hroot.mem_places_find? hl).mp hplace)
    exact ⟨names ++ more, List.mem_map_of_mem hfile, List.prefix_append _ _⟩
  · rintro (rfl | ⟨_, hsegments, more, rfl⟩)
    · exact ⟨_, rfl⟩
    · obtain ⟨⟨_, i⟩, hfile, rfl⟩ := List.mem_map.mp hsegments
      exact hroot.find?_of_mem_places ((places_ofFiles files).mem_iff.mpr hfile)

/-- **A level holds entries where the path of an insertion ends.** -/
theorem isEmpty_entries_ofFiles {names : List String} {l : PathIndex}
    (hl : (ofFiles files).find? names = some l) :
    l.entries.isEmpty ↔ names ∉ files.map Prod.fst := by
  have hmem (i : Nat) : i ∈ l.entries ↔ (names, i) ∈ files := by
    rw [mem_entries_iff, (ascending_ofFiles files).mem_places_find? hl, List.append_nil,
      (places_ofFiles files).mem_iff]
  rw [List.isEmpty_iff, List.eq_nil_iff_forall_not_mem]
  simp [hmem]

/-- **Insertions with the same paths make one shape.** -/
theorem sameShape_ofFiles
    (h : ∀ segments, segments ∈ files.map Prod.fst ↔ segments ∈ files'.map Prod.fst) :
    SameShape (ofFiles files) (ofFiles files') := by
  intro names
  have hsome : ((ofFiles files).find? names).isSome = ((ofFiles files').find? names).isSome := by
    rw [Bool.eq_iff_iff, isSome_find?_ofFiles, isSome_find?_ofFiles]
    simp only [h]
  cases hl : (ofFiles files).find? names with
  | none => rw [(Option.isSome_eq_isSome.mp hsome).mp hl]
  | some l =>
    rw [hl] at hsome
    obtain ⟨l', hl'⟩ := Option.isSome_iff_exists.mp hsome.symm
    rw [hl', Option.map_some, Option.map_some, Option.some.injEq, Bool.eq_iff_iff,
      isEmpty_entries_ofFiles hl, isEmpty_entries_ofFiles hl', h]

theorem levelAt?_eq_find? (root : PathIndex) (path : Option String) :
    root.levelAt? path = root.find? (LogTree.segmentsOf path) := by
  cases path <;> rfl

/-- **The groups depend on nothing but which paths have entries.**  Two lists of insertions with the
same paths, in whatever order, however often and with whatever indexes, make levels at the same
places, and a level has the same groups in both.  The groups are in the order of the bytes of the
segments that their labels start with: those that come next, after the segments of the level, in the
paths of the insertions.  Without slashes in the segments, they are what stands before the first
slash of the labels. -/
theorem groups_ofFiles
    (h : ∀ segments, segments ∈ files.map Prod.fst ↔ segments ∈ files'.map Prod.fst)
    (path : Option String) :
    ((ofFiles files).levelAt? path).map (·.groups path) =
      ((ofFiles files').levelAt? path).map (·.groups path) ∧
    ∀ l, (ofFiles files).levelAt? path = some l →
      l.names.Pairwise (fun s t => Text.bytes s < Text.bytes t) ∧
      List.Forall₂ (fun name g => StartsWith name g.label) l.names (l.groups path) ∧
      (∀ name, name ∈ l.names ↔
        ∃ segments ∈ files.map Prod.fst, LogTree.segmentsOf path ++ [name] <+: segments) ∧
      ((∀ segments ∈ files.map Prod.fst, ∀ s ∈ segments, '/' ∉ s.toList) →
        (l.groups path).map firstSegment = l.names) := by
  rw [levelAt?_eq_find?, levelAt?_eq_find?]
  have hroot := ascending_ofFiles files
  refine ⟨(sameShape_ofFiles h).map_find? (fun hshape hm hm' => hshape.groups_eq hm hm' path) hroot
    (ascending_ofFiles files') _, fun l hl => ?_⟩
  have hnames (name : String) : name ∈ l.names ↔
      ∃ segments ∈ files.map Prod.fst, LogTree.segmentsOf path ++ [name] <+: segments := by
    have hfind : l.find? [name] = (ofFiles files).find? (LogTree.segmentsOf path ++ [name]) := by
      rw [find?_append, hl, Option.bind_some]
    rw [mem_names_iff, hfind, isSome_find?_ofFiles, or_iff_right (List.concat_ne_nil _ _)]
  refine ⟨(hroot.find? hl).pairwise_names.imp Text.bytes_lt_iff.mpr, l.forall₂_groups path, hnames,
    fun hslash => map_firstSegment (fun name hname => ?_) path⟩
  obtain ⟨segments, hsegments, hstart⟩ := (hnames name).mp hname
  exact hslash segments hsegments name (hstart.subset (List.mem_append_right _ List.mem_cons_self))

/-- Insertions below a directory that holds nothing but another one, and beside it. -/
def nestedInsertions : List (List String × Nat) :=
  [(["src", "lib", "a.ts"], 0), (["src", "lib", "ui", "b.ts"], 1), (["Zoo.ts"], 2), ([], 3)]

/-- The same paths in another order, one of them twice, with other indexes. -/
def shuffledInsertions : List (List String × Nat) :=
  [(["Zoo.ts"], 7), ([], 9), (["src", "lib", "ui", "b.ts"], 4), (["src", "lib", "a.ts"], 4),
    (["Zoo.ts"], 5)]

/-- At the top and at `src/lib`, written with more slashes, the groups are the same, and at the top
they start with the bytes of `Zoo.ts` and of `src`. -/
theorem groups_ofFiles_shuffled :
    (∀ segments, segments ∈ nestedInsertions.map Prod.fst ↔
      segments ∈ shuffledInsertions.map Prod.fst) ∧
    ((ofFiles nestedInsertions).levelAt? (some "/src//lib")).map (·.groups (some "/src//lib")) =
      ((ofFiles shuffledInsertions).levelAt? (some "/src//lib")).map (·.groups (some "/src//lib")) ∧
    (ofFiles nestedInsertions).groups none = [⟨"Zoo.ts", "Zoo.ts"⟩, ⟨"src/lib", "src/lib"⟩] ∧
    ((ofFiles nestedInsertions).groups none).map firstSegment =
      (ofFiles nestedInsertions).names ∧
    "src" ∈ (ofFiles nestedInsertions).names := by
  have hpaths : ∀ segments, segments ∈ nestedInsertions.map Prod.fst ↔
      segments ∈ shuffledInsertions.map Prod.fst := by
    have hsub : ∀ segments ∈ nestedInsertions.map Prod.fst,
        segments ∈ shuffledInsertions.map Prod.fst := by decide +kernel
    have hsup : ∀ segments ∈ shuffledInsertions.map Prod.fst,
        segments ∈ nestedInsertions.map Prod.fst := by decide +kernel
    exact fun segments => ⟨hsub segments, hsup segments⟩
  have hslash : ∀ segments ∈ nestedInsertions.map Prod.fst, ∀ s ∈ segments, '/' ∉ s.toList := by
    decide +kernel
  obtain ⟨-, -, hnames, hfirst⟩ := (groups_ofFiles hpaths none).2 _ rfl
  refine ⟨hpaths, (groups_ofFiles hpaths (some "/src//lib")).1, by decide +kernel, hfirst hslash, ?_⟩
  exact (hnames "src").mpr ⟨["src", "lib", "a.ts"], by decide +kernel, by decide⟩

end PathIndex

end ConsoleLens
