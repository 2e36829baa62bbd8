import ConsoleLens.Proofs.Tree.Level

/-!
# Proofs/Tree/Walk — every index is met once on the way through the groups

Whoever looks at the index of paths goes from group to group: the entries of a level, then the
levels of its groups, whose paths are texts that may skip levels and are cut into names anew
(`walk?`).  A level that is skipped has no entries and one child, so nothing is missed, and

    the walk from a level on  =  all that is filed there and below, with the paths of its levels

as lists (`Named.walksTo`).  What is filed below a path is what was inserted under it
(`filter_places`, `places_ofFiles`), whichever groups were shown in between; so **from every level
there is, shown as a group or not, the walk meets each index inserted below it once, at its own
path, and no others** (`walk_ofFiles`).
-/

namespace ConsoleLens

namespace PathIndex

/-! ## The walk -/

/-- **The walk through the groups** from a path on: the entries of the level there, each with the
path, and then those of the levels of its groups.  There is none if a group is not found, or if it
takes more than `depth` steps down. -/
def walk? (root : PathIndex) : (depth : Nat) → (path : Option String) → Option (List (String × Nat))
  | 0, _ => none
  | depth + 1, path => do
    let l ← root.levelAt? path
    let below ← (l.groups path).mapM fun g => walk? root depth (some g.path)
    return l.entries.map (path.getD "", ·) ++ below.flatten

/-- **The walk comes to an end** with these visits, and more steps down do not change it. -/
def WalksTo (root : PathIndex) (path : Option String) (visits : List (String × Nat)) : Prop :=
  ∃ depth, ∀ n ≥ depth, root.walk? n path = some visits

/-- The path that names below a path lead to. -/
def pathBelow (path : Option String) (names : List String) : Option String :=
  names.foldl (fun p name => some (childPath p name)) path

/-- All that is filed at a level or below, with the paths of the levels when it is at `path`. -/
def visitsFrom (path : Option String) (l : PathIndex) : List (String × Nat) :=
  l.places.map (Prod.map (fun names => (pathBelow path names).getD "") id)

/-- All that is filed at a child of a level or below. -/
def placesIn (c : String × PathIndex) : List (List String × Nat) :=
  c.2.places.map (Prod.map (c.1 :: ·) id)

theorem placesBelow_eq (cs : List (String × PathIndex)) : placesBelow cs = cs.flatMap placesIn := by
  induction cs with
  | nil => rfl
  | cons c rest ih =>
    rw [placesBelow, ih, List.flatMap_cons]
    rfl

theorem visitsFrom_level (path : Option String) (es : List Nat) (cs : List (String × PathIndex)) :
    visitsFrom path (.level es cs) = es.map (path.getD "", ·) ++
      (cs.map fun c => visitsFrom (some (childPath path c.1)) c.2).flatten := by
  rw [visitsFrom, places, placesBelow_eq, List.map_append, List.map_map, List.map_flatMap,
    ← List.flatMap_def]
  simp only [placesIn, List.map_map]
  rfl

/-- What settles for each item of a list settles for all of them. -/
theorem exists_mapM {α β : Type} {f : Nat → α → Option β} {g : α → β} : ∀ {xs : List α},
    (∀ x ∈ xs, ∃ depth, ∀ n ≥ depth, f n x = some (g x)) →
      ∃ depth, ∀ n ≥ depth, xs.mapM (f n) = some (xs.map g)
  | [], _ => ⟨0, fun _ _ => rfl⟩
  | x :: xs, h => by
      obtain ⟨depth, hx⟩ := h x List.mem_cons_self
      obtain ⟨depth', hxs⟩ := exists_mapM fun y hy => h y (List.mem_cons_of_mem x hy)
      refine ⟨max depth depth', fun n hn => ?_⟩
      rw [List.mapM_cons, hx n (le_of_max_le_left hn), hxs n (le_of_max_le_right hn)]
      rfl

/-- **A level is walked through when its groups are.** -/
theorem walksTo_of_children {root : PathIndex} {path : Option String} {es : List Nat}
    {cs : List (String × PathIndex)} (hl : root.levelAt? path = some (.level es cs))
    (h : ∀ c ∈ cs, root.WalksTo (some (c.2.compact (childPath path c.1) c.1).path)
      (visitsFrom (some (childPath path c.1)) c.2)) :
    root.WalksTo path (visitsFrom path (.level es cs)) := by
  obtain ⟨depth, hbelow⟩ := exists_mapM h
  refine ⟨depth + 1, fun n hn => ?_⟩
  obtain ⟨m, rfl⟩ : ∃ m, n = m + 1 := ⟨n - 1, by omega⟩
  have hgroups : (groups (.level es cs) path).mapM (fun g => root.walk? m (some g.path)) =
      some (cs.map fun c => visitsFrom (some (childPath path c.1)) c.2) := by
    rw [groups, children, List.mapM_map]
    exact hbelow m (Nat.le_of_succ_le_succ hn)
  rw [walk?, hl, visitsFrom_level]
  simp only [Option.bind_eq_bind, Option.bind_some, hgroups]
  rfl

/-- **The walk from a level on meets all that is filed there and below**, and so it does from the
group that the level is merged into. -/
theorem Named.walksTo {root : PathIndex} (hroot : Ascending root) {l : PathIndex}
    (hnamed : l.Named fun s => Text.segments s = [s]) {path : Option String}
    (hl : root.levelAt? path = some l) : root.WalksTo path (l.visitsFrom path) := by
  refine (hnamed.group_induction hroot (P := fun shown path l =>
    root.WalksTo shown (l.visitsFrom path)) walksTo_of_children ?_).1 path hl
  intro shown path name l hwalk
  rwa [visitsFrom_level, List.map_nil, List.nil_append, List.map_singleton, List.flatten_singleton]

/-! ## What a label skips -/

/-- **A label goes on with the names of levels below, and those that it skips have no entries.** -/
theorem Named.skips_compact {l : PathIndex} (h : l.Named fun s => Text.segments s = [s])
    (path label : String) : ∃ names, Text.segments (l.compact path label).label =
      Text.segments label ++ names ∧
      ∀ skipped, skipped <+: names → skipped ≠ names →
        ∃ l', l.find? skipped = some l' ∧ l'.entries = [] := by
  fun_induction PathIndex.compact path label l with
  | case1 path label name es c cs ih =>
    obtain ⟨hname, hbelow⟩ := h
    obtain ⟨names, hlabel, hskips⟩ := ih (hbelow _ List.mem_cons_self)
    rw [Text.segments_append, hname _ List.mem_cons_self, List.append_assoc] at hlabel
    refine ⟨name :: names, hlabel, fun skipped hprefix hne => ?_⟩
    rcases List.prefix_cons_iff.mp hprefix with rfl | ⟨rest, rfl, hrest⟩
    · exact ⟨_, rfl, rfl⟩
    · obtain ⟨l', hl', hentries⟩ := hskips rest hrest fun heq => hne (heq ▸ rfl)
      refine ⟨l', ?_, hentries⟩
      rwa [PathIndex.find?, List.lookup_cons_self, Option.bind_some]
  | case2 path label l =>
    refine ⟨[], (List.append_nil _).symm, fun skipped hprefix hne => ?_⟩
    exact absurd (List.prefix_nil.mp hprefix) hne

/-- **A group's path is that of its level and its label, which skips nothing but levels without
entries.** -/
theorem skips_of_mem_groups {l : PathIndex} (hl : Ascending l)
    (h : l.Named fun s => Text.segments s = [s]) {path : Option String} {g : PathBranch}
    (hg : g ∈ l.groups path) : g.path = childPath path g.label ∧
      ∀ skipped, skipped <+: Text.segments g.label → skipped ≠ [] →
        skipped ≠ Text.segments g.label → ∃ l', l.find? skipped = some l' ∧ l'.entries = [] := by
  obtain ⟨hname, hbelow⟩ := h
  obtain ⟨hnames, -⟩ := hl
  obtain ⟨c, hc, rfl⟩ := List.mem_map.mp hg
  obtain ⟨names, hlabel, hskips⟩ := (hbelow c hc).skips_compact (childPath path c.1) c.1
  rw [hname c hc] at hlabel
  refine ⟨?_, fun skipped hprefix hnil hne => ?_⟩
  · rw [childPath_eq]
    exact path_compact (childPath_eq path c.1) c.2
  · rw [hlabel] at hprefix hne
    obtain ⟨rest, rfl, hrest⟩ := (List.prefix_cons_iff.mp hprefix).resolve_left hnil
    obtain ⟨l', hl', hentries⟩ := hskips rest hrest fun heq => hne (heq ▸ rfl)
    refine ⟨l', ?_, hentries⟩
    rwa [find?, lookup_of_mem hnames hc, Option.bind_some]

/-! ## What is filed below a path -/

/-- A child has nothing to give to another name. -/
theorem filter_placesIn (name : String) (rest : List String) (c : String × PathIndex) :
    (placesIn c).filter (name :: rest <+: ·.1) =
      if c.1 = name then (c.2.places.filter (rest <+: ·.1)).map (Prod.map (name :: ·) id) else [] := by
  rw [placesIn, List.filter_map]
  split
  · next heq =>
    subst heq
    simp [Function.comp_def, List.cons_prefix_cons]
  · next hne => simp [Function.comp_def, List.cons_prefix_cons, Ne.symm hne]

theorem filter_placesBelow {cs : List (String × PathIndex)} (hnames : cs.Pairwise (·.1 < ·.1))
    {c : String × PathIndex} (hc : c ∈ cs) (rest : List String) :
    (placesBelow cs).filter (c.1 :: rest <+: ·.1) =
      (c.2.places.filter (rest <+: ·.1)).map (Prod.map (c.1 :: ·) id) := by
  obtain ⟨before, after, rfl⟩ := List.append_of_mem hc
  obtain ⟨-, hafter, hbefore⟩ := List.pairwise_append.mp hnames
  have hnone {others : List (String × PathIndex)} (h : ∀ b ∈ others, b.1 ≠ c.1) :
      (others.flatMap placesIn).filter (c.1 :: rest <+: ·.1) = [] := by
    rw [List.filter_flatMap, List.flatMap_eq_nil_iff]
    intro b hb
    rw [filter_placesIn, if_neg (h b hb)]
  have hleft := hnone fun b hb => (hbefore b hb c List.mem_cons_self).ne
  have hright := hnone fun b hb => ((List.pairwise_cons.mp hafter).1 b hb).ne'
  rw [placesBelow_eq, List.flatMap_append, List.flatMap_cons, List.filter_append,
    List.filter_append, hleft, hright, filter_placesIn, if_pos rfl, List.append_nil,
    List.nil_append]

/-- **What is filed with names that lead to a level is what is filed at it or below.** -/
theorem filter_places : ∀ {names : List String} {l l' : PathIndex}, Ascending l →
    l.find? names = some l' →
      l.places.filter (names <+: ·.1) = l'.places.map (Prod.map (names ++ ·) id)
  | [], l, _, _, hl => by
      obtain rfl := Option.some.inj hl
      simp only [List.nil_prefix, decide_true, List.filter_true, List.nil_append]
      exact (List.map_id l.places).symm
  | name :: rest, .level es cs, l', .level hnames hbelow, hl => by
      obtain ⟨child, hchild, hrest⟩ := Option.bind_eq_some_iff.mp hl
      have hmem : (name, child) ∈ cs := mem_of_lookup hchild
      have hhere : (es.map (([], ·) : Nat → List String × Nat)).filter
          (name :: rest <+: ·.1) = [] := by
        rw [List.filter_map]
        simp [Function.comp_def]
      rw [places, List.filter_append, hhere, List.nil_append, filter_placesBelow hnames hmem,
        filter_places (hbelow _ hmem) hrest, List.map_map]
      rfl

/-! ## Insertions -/

/-- **The index that insertions make**, one after the other. -/
def ofFiles (files : List (List String × Nat)) : PathIndex :=
  files.foldl (fun l f => l.insert f.2 f.1) empty

theorem ofFiles_concat (files : List (List String × Nat)) (f : List String × Nat) :
    ofFiles (files ++ [f]) = (ofFiles files).insert f.2 f.1 := List.foldl_concat ..

theorem ascending_ofFiles (files : List (List String × Nat)) : Ascending (ofFiles files) := by
  induction files using List.reverseRecOn with
  | nil => exact ascending_empty
  | append_singleton files f ih =>
    rw [ofFiles_concat]
    exact ih.insert f.2 f.1

theorem named_ofFiles {P : String → Prop} {files : List (List String × Nat)}
    (h : ∀ f ∈ files, ∀ s ∈ f.1, P s) : (ofFiles files).Named P := by
  induction files using List.reverseRecOn with
  | nil => exact named_empty
  | append_singleton files f ih =>
    rw [ofFiles_concat]
    exact (ih fun f' hf' => h f' (List.mem_append_left [f] hf')).insert f.2
      (h f (List.mem_append_right files List.mem_cons_self))

/-- **What is filed is what was inserted.** -/
theorem places_ofFiles (files : List (List String × Nat)) : (ofFiles files).places.Perm files := by
  induction files using List.reverseRecOn with
  | nil => exact .nil
  | append_singleton files f ih =>
    rw [ofFiles_concat]
    exact ((places_insert f.2 f.1 _).trans (ih.cons f)).trans (List.perm_append_singleton f files).symm

/-! ## Paths -/

/-- The text of a path, the root having none. -/
def pathOf : List String → Option String
  | [] => none
  | name :: rest => some ("/".intercalate (name :: rest))

theorem getD_pathOf (names : List String) : (pathOf names).getD "" = "/".intercalate names := by
  cases names <;> rfl

theorem pathBelow_some (path : String) : ∀ names : List String,
    pathBelow (some path) names = some ("/".intercalate (path :: names))
  | [] => congrArg some String.intercalate_singleton.symm
  | name :: rest => by
      have hjoin : "/".intercalate ((path ++ "/" ++ name) :: rest) =
          "/".intercalate (path :: name :: rest) := by
        rw [String.intercalate_cons_cons]
        cases rest with
        | nil => rw [String.intercalate_singleton, String.intercalate_singleton]
        | cons next rest =>
          rw [String.intercalate_cons_cons, String.intercalate_cons_cons]
          simp only [String.append_assoc]
      exact (pathBelow_some (path ++ "/" ++ name) rest).trans (congrArg some hjoin)

theorem pathBelow_none : ∀ names : List String, pathBelow none names = pathOf names
  | [] => rfl
  | name :: rest => pathBelow_some name rest

theorem pathBelow_append (path : Option String) (xs ys : List String) :
    pathBelow path (xs ++ ys) = pathBelow (pathBelow path xs) ys := List.foldl_append

theorem Named.name_of_mem {P : String → Prop} {l : PathIndex} (h : l.Named P)
    {c : String × PathIndex} (hc : c ∈ l.children) : P c.1 := by
  obtain ⟨hname, -⟩ := h
  exact hname c hc

theorem mem_children_of_find? {name : String} {l child : PathIndex}
    (h : l.find? [name] = some child) : (name, child) ∈ l.children := by
  obtain ⟨es, cs⟩ := l
  obtain ⟨c, hc, hsame⟩ := Option.bind_eq_some_iff.mp h
  obtain rfl := Option.some.inj hsame
  exact mem_of_lookup hc

/-- **A level is found under the text of its path.** -/
theorem Named.levelAt?_pathOf {root : PathIndex} (hroot : Ascending root)
    (hnamed : root.Named fun s => Text.segments s = [s]) {names : List String} {l : PathIndex}
    (hl : root.find? names = some l) : root.levelAt? (pathOf names) = some l := by
  rw [← pathBelow_none]
  induction names using List.reverseRecOn generalizing l with
  | nil => exact hl
  | append_singleton names name ih =>
    rw [find?_append] at hl
    obtain ⟨parent, hparent, hchild⟩ := Option.bind_eq_some_iff.mp hl
    have hmem : (name, l) ∈ parent.children := mem_children_of_find? hchild
    have hname : Text.segments name = [name] := Named.name_of_mem (hnamed.find? hparent) hmem
    have hfound := hroot.levelAt?_childPath (ih hparent) hmem hname
    rwa [pathBelow_append]

/-! ## Every entry once -/

/-- **Compaction neither moves nor hides an entry.**  Every level of the index that insertions make
is found under its path, and the walk from there comes to an end; it meets every index inserted
under a path that goes on from the level's, once and at its own path, and no other index.  The path
of a group is that of the level and the group's label, and a label skips nothing but levels without
entries. -/
theorem walk_ofFiles {files : List (List String × Nat)}
    (hsegments : ∀ f ∈ files, ∀ s ∈ f.1, s ≠ "" ∧ '/' ∉ s.toList)
    (hdistinct : (files.map Prod.snd).Nodup) {names : List String} {l : PathIndex}
    (hl : (ofFiles files).find? names = some l) :
    let root := ofFiles files
    let path := pathOf names
    root.levelAt? path = some l ∧
    (∃ visits, root.WalksTo path visits ∧ (visits.map Prod.snd).Nodup ∧
      ∀ text i, (text, i) ∈ visits ↔
        ∃ segments, (segments, i) ∈ files ∧ names <+: segments ∧ text = "/".intercalate segments) ∧
    ∀ g ∈ l.groups path, g.path = childPath path g.label ∧
      ∀ skipped, skipped <+: Text.segments g.label → skipped ≠ [] →
        skipped ≠ Text.segments g.label → ∃ l', l.find? skipped = some l' ∧ l'.entries = [] := by
  intro root path
  have hroot : root.Ascending := ascending_ofFiles files
  have hnamed : root.Named fun s => Text.segments s = [s] := named_ofFiles fun f hf s hs =>
    Text.segments_of_notMem (by simpa using (hsegments f hf s hs).1) (hsegments f hf s hs).2
  have hlevel : root.levelAt? path = some l := hnamed.levelAt?_pathOf hroot hl
  have hvisits : l.visitsFrom path = (root.places.filter (names <+: ·.1)).map
      (Prod.map ("/".intercalate ·) id) := by
    rw [filter_places hroot hl, List.map_map, visitsFrom]
    refine List.map_congr_left fun p _ => ?_
    simp only [Function.comp_apply, Prod.map, id, path, ← pathBelow_none, ← pathBelow_append]
    rw [pathBelow_none, getD_pathOf]
  have hperm : (l.visitsFrom path).Perm ((files.filter (names <+: ·.1)).map
      (Prod.map ("/".intercalate ·) id)) :=
    hvisits ▸ ((places_ofFiles files).filter _).map _
  refine ⟨hlevel, ⟨l.visitsFrom path, (hnamed.find? hl).walksTo hroot hlevel, ?_, ?_⟩,
    fun g hg => skips_of_mem_groups (hroot.find? hl) (hnamed.find? hl) hg⟩
  · rw [(hperm.map Prod.snd).nodup_iff, List.map_map]
    exact hdistinct.sublist (List.filter_sublist.map _)
  · intro text i
    rw [hperm.mem_iff]
    simp only [List.mem_map, List.mem_filter, decide_eq_true_eq, Prod.map, Prod.mk.injEq, id]
    constructor
    · rintro ⟨⟨segments, j⟩, ⟨hfile, hprefix⟩, rfl, rfl⟩
      exact ⟨segments, hfile, hprefix, rfl⟩
    · rintro ⟨segments, hfile, hprefix, rfl⟩
      exact ⟨(segments, i), ⟨hfile, hprefix⟩, rfl, rfl⟩

/-- A directory with nothing but another one, and a file that is a directory, too. -/
def nestedFiles : List (List String × Nat) :=
  [(["src", "lib", "a.ts"], 4), ([], 7), (["src", "lib", "ui", "b.ts"], 9),
    (["src", "lib", "a.ts"], 2), (["src", "lib", "a.ts", "x"], 5)]

/-- The level `src` is not shown as a group, and the walk from it meets four of five indexes. -/
theorem walk_ofFiles_nestedFiles :
    (∀ f ∈ nestedFiles, ∀ s ∈ f.1, s ≠ "" ∧ '/' ∉ s.toList) ∧
    (nestedFiles.map Prod.snd).Nodup ∧
    (ofFiles nestedFiles).groups none = [⟨"src/lib", "src/lib"⟩] ∧
    ∃ visits, (ofFiles nestedFiles).WalksTo (some "src") visits ∧
      (visits.map Prod.snd).Nodup ∧ ("src/lib/a.ts", 2) ∈ visits ∧
      ("src/lib/a.ts/x", 5) ∈ visits ∧ ("", 7) ∉ visits := by
  have hsegments : ∀ f ∈ nestedFiles, ∀ s ∈ f.1, s ≠ "" ∧ '/' ∉ s.toList := by decide +kernel
  have hdistinct : (nestedFiles.map Prod.snd).Nodup := by decide
  obtain ⟨l, hl⟩ : ∃ l, (ofFiles nestedFiles).find? ["src"] = some l :=
    Option.isSome_iff_exists.mp (by decide +kernel)
  obtain ⟨-, ⟨visits, hwalk, hnodup, hvisits⟩, -⟩ := walk_ofFiles hsegments hdistinct hl
  refine ⟨hsegments, hdistinct, by decide +kernel, visits, hwalk, hnodup, ?_, ?_, ?_⟩
  · exact (hvisits _ 2).mpr ⟨["src", "lib", "a.ts"], by decide, by decide, by decide +kernel⟩
  · exact (hvisits _ 5).mpr ⟨["src", "lib", "a.ts", "x"], by decide, by decide, by decide +kernel⟩
  · rintro hroot
    obtain ⟨segments, hfile, hbelow, -⟩ := (hvisits _ 7).mp hroot
    have hempty : segments = [] := by simpa [nestedFiles] using hfile
    exact absurd hbelow (by simp [hempty])

end PathIndex

end ConsoleLens
