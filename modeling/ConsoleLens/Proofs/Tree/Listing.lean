import ConsoleLens.Proofs.Keyed
import ConsoleLens.Proofs.Tree.Filing
import ConsoleLens.Proofs.Tree.Level

/-!
# Proofs/Tree/Listing — the grouped view and the flat one show the same entries

The grouped view is listed level by level: the items at the top, then those at the path of every
group among them, and so on (`levelsTo?`).  The paths are text that the items carry, and a group may
have been merged with the levels below it.  Nothing in the text says that this comes to an end, so a
listing goes down to some depth and is no listing if there are groups deeper than that.

    levels of the grouped view, without the groups  ~  the flat view

**The listing comes to an end, shows every entry once and nothing else** (`listing_run`), each level
in the order of lines.  The induction is over the index of paths: what is shown from a level on is
what is filed there and below (`Whole`), also when the level is reached by a merged group.
-/

namespace ConsoleLens

/-- Whether an item stands for a group. -/
def Item.isGroup (i : Item) : Bool := i.kind = .path

namespace LogTree

/-- **Every level of the grouped view** from a path on: the items at it, then the levels of each
group among them.  There is none if it takes more than `depth` steps down. -/
def levelsTo? (t : LogTree) (registry : Registry) :
    (depth : Nat) → (path : Option String) → Option (List (List Handout))
  | 0, _ => none
  | depth + 1, path => do
    let items := t.itemsAt registry path
    let below ← (items.filter (·.1.isGroup)).mapM fun g =>
      levelsTo? t registry depth (some g.1.id)
    return items :: below.flatten

/-- The entries among the items of levels. -/
def shown (levels : List (List Handout)) : List Handout :=
  levels.flatten.filter (!·.1.isGroup)

/-- **Groups first, then entries by their lines**; equal lines keep the order of arrival. -/
def InOrder (t : LogTree) (registry : Registry) (items : List Handout) : Prop :=
  ∃ (groups : List PathBranch) (logs : List (Nat × FiledEntry)),
    items = groups.map branchItem ++ logs.map (fun l => logItem registry l.1 l.2) ∧
    (∀ l ∈ logs, t.stored[l.1]? = some l.2) ∧
    logs.Pairwise fun a b =>
      a.2.entry.originalPosition.line < b.2.entry.originalPosition.line ∨
      a.2.entry.originalPosition.line = b.2.entry.originalPosition.line ∧ a.1 < b.1

/-! ## The items of one level -/

@[simp] theorem isGroup_branchItem (g : PathBranch) : (branchItem g).1.isGroup = true := rfl

@[simp] theorem isGroup_logItem (registry : Registry) (index : Nat) (s : FiledEntry) :
    (logItem registry index s).1.isGroup = false := by
  unfold logItem
  split <;> rfl

/-- The entries at a level in the order in which they are listed. -/
def logsAt (t : LogTree) (l : PathIndex) : List (Nat × FiledEntry) :=
  (t.sortByLine l.entries).filterMap fun i => t.stored[i]?.map (i, ·)

theorem map_logsAt (t : LogTree) (registry : Registry) (l : PathIndex) :
    (t.logsAt l).map (fun x => logItem registry x.1 x.2) =
      (t.sortByLine l.entries).filterMap (t.logItem? registry) := by
  rw [logsAt, List.map_filterMap]
  refine congrArg (List.filterMap · _) (funext fun i => ?_)
  rw [Option.map_map]
  rfl

theorem mem_logsAt {t : LogTree} {l : PathIndex} {x : Nat × FiledEntry} :
    x ∈ t.logsAt l ↔ x.1 ∈ l.entries ∧ t.stored[x.1]? = some x.2 := by
  obtain ⟨i, s⟩ := x
  simp only [logsAt, List.mem_filterMap, Option.map_eq_some_iff, Prod.mk.injEq, sortByLine,
    List.mem_mergeSort]
  constructor
  · rintro ⟨i, hi, s, hs, rfl, rfl⟩
    exact ⟨hi, hs⟩
  · rintro ⟨hi, hs⟩
    exact ⟨i, hi, s, hs, rfl, rfl⟩

theorem itemsAt_eq {t : LogTree} (registry : Registry) {path : Option String} {l : PathIndex}
    (hl : t.levelAt? path = some l) :
    t.itemsAt registry path = (l.groups path).map branchItem ++
      (t.logsAt l).map fun x => logItem registry x.1 x.2 := by
  rw [map_logsAt]
  simp only [itemsAt, hl]

/-- **The entries at a level are listed by line**, and on equal lines as they came. -/
theorem pairwise_logsAt (t : LogTree) {l : PathIndex} (h : l.entries.Pairwise (· < ·)) :
    (t.logsAt l).Pairwise fun a b =>
      a.2.entry.originalPosition.line < b.2.entry.originalPosition.line ∨
      a.2.entry.originalPosition.line = b.2.entry.originalPosition.line ∧ a.1 < b.1 := by
  have hsorted := Keyed.pairwise_mergeSort_of_pairwise t.lineOf h
  refine List.pairwise_filterMap.mpr (hsorted.imp fun {i j} hij a ha b hb => ?_)
  obtain ⟨s, hs, rfl⟩ := Option.map_eq_some_iff.mp ha
  obtain ⟨s', hs', rfl⟩ := Option.map_eq_some_iff.mp hb
  simpa only [lineOf, hs, hs', Option.map_some, Option.getD_some] using hij

theorem inOrder_itemsAt {t : LogTree} (registry : Registry) {path : Option String} {l : PathIndex}
    (hl : t.levelAt? path = some l) (h : l.entries.Pairwise (· < ·)) :
    t.InOrder registry (t.itemsAt registry path) := by
  exact ⟨l.groups path, t.logsAt l, itemsAt_eq registry hl, fun x hx => (mem_logsAt.mp hx).2,
    t.pairwise_logsAt h⟩

/-- The groups among the items of a level. -/
theorem filter_itemsAt {t : LogTree} (registry : Registry) {path : Option String} {l : PathIndex}
    (hl : t.levelAt? path = some l) :
    (t.itemsAt registry path).filter (·.1.isGroup) = (l.groups path).map branchItem := by
  simp [itemsAt_eq registry hl, List.filter_map, Function.comp_def]

/-- **The entries among the items of a level are those at it**, in another order. -/
theorem shown_itemsAt {t : LogTree} (registry : Registry) {path : Option String} {l : PathIndex}
    (hl : t.levelAt? path = some l) :
    (shown [t.itemsAt registry path]).Perm (l.entries.filterMap (t.logItem? registry)) := by
  have hlogs : shown [t.itemsAt registry path] =
      (t.logsAt l).map fun x => logItem registry x.1 x.2 := by
    simp [shown, itemsAt_eq registry hl, List.filter_map, Function.comp_def]
  rw [hlogs, map_logsAt]
  exact (List.mergeSort_perm _ _).filterMap _

/-! ## The levels below -/

theorem shown_append (xs ys : List (List Handout)) : shown (xs ++ ys) = shown xs ++ shown ys := by
  rw [shown, List.flatten_append, List.filter_append]
  rfl

/-- **The listing from a path on comes to an end** with these levels, and more steps down do not
change it. -/
def ListsTo (t : LogTree) (registry : Registry) (path : Option String)
    (levels : List (List Handout)) : Prop :=
  ∃ depth, ∀ n ≥ depth, t.levelsTo? registry n path = some levels

/-- **From a path on, what is shown is a list of entries**: the listing comes to an end, each level
is in order, and the entries on all of them are those at the indexes. -/
def Whole (t : LogTree) (registry : Registry) (path : Option String) (indexes : List Nat) : Prop :=
  ∃ levels, t.ListsTo registry path levels ∧
    (∀ items ∈ levels, t.InOrder registry items) ∧
    (shown levels).Perm (indexes.filterMap (t.logItem? registry))

/-- The group of a child of the level at a path. -/
def branchOf (path : Option String) (c : String × PathIndex) : PathBranch :=
  c.2.compact (PathIndex.childPath path c.1) c.1

/-- Groups that are shown whole are shown whole one after the other. -/
theorem exists_below {t : LogTree} {registry : Registry} (path : Option String) :
    ∀ (cs : List (String × PathIndex)),
      (∀ c ∈ cs, t.Whole registry (some (branchOf path c).path) c.2.filed) →
      ∃ below depth, (∀ n ≥ depth,
          cs.mapM (fun c => t.levelsTo? registry n (some (branchOf path c).path)) = some below) ∧
        (∀ items ∈ below.flatten, t.InOrder registry items) ∧
        (shown below.flatten).Perm
          ((PathIndex.filedBelow cs).filterMap (t.logItem? registry))
  | [], _ => ⟨[], 0, fun _ _ => rfl, by simp, .nil⟩
  | c :: rest, h => by
      obtain ⟨levels, ⟨depth, hlevels⟩, horder, hperm⟩ := h c List.mem_cons_self
      obtain ⟨below, depth', hbelow, horder', hperm'⟩ :=
        exists_below path rest fun c' hc' => h c' (List.mem_cons_of_mem c hc')
      refine ⟨levels :: below, max depth depth', fun n hn => ?_, fun items hitems => ?_, ?_⟩
      · rw [List.mapM_cons, hlevels n (le_of_max_le_left hn), hbelow n (le_of_max_le_right hn)]
        rfl
      · rw [List.flatten_cons] at hitems
        exact (List.mem_append.mp hitems).elim (horder items) (horder' items)
      · rw [List.flatten_cons, shown_append, PathIndex.filedBelow, List.filterMap_append]
        exact hperm.append hperm'

/-- **A level is shown whole when its groups are.** -/
theorem whole_of_children {t : LogTree} {registry : Registry} {path : Option String}
    {es : List Nat} {cs : List (String × PathIndex)} (hl : t.levelAt? path = some (.level es cs))
    (hes : es.Pairwise (· < ·))
    (h : ∀ c ∈ cs, t.Whole registry (some (branchOf path c).path) c.2.filed) :
    t.Whole registry path (PathIndex.level es cs).filed := by
  obtain ⟨below, depth, hbelow, horder, hperm⟩ := exists_below path cs h
  refine ⟨t.itemsAt registry path :: below.flatten, ⟨depth + 1, fun n hn => ?_⟩,
    fun items hitems => ?_, ?_⟩
  · have hgroups : (t.itemsAt registry path).filter (·.1.isGroup) =
        cs.map fun c => branchItem (branchOf path c) := by
      rw [filter_itemsAt registry hl]
      exact List.map_map
    cases n with
    | zero => exact absurd hn (Nat.not_succ_le_zero depth)
    | succ m =>
      have hmap : (cs.map fun c => branchItem (branchOf path c)).mapM
          (fun g => t.levelsTo? registry m (some g.1.id)) = some below := by
        rw [List.mapM_map]
        exact hbelow m (Nat.le_of_succ_le_succ hn)
      rw [levelsTo?, hgroups, hmap]
      rfl
  · rcases List.mem_cons.mp hitems with rfl | hitems
    · exact inOrder_itemsAt registry hl hes
    · exact horder items hitems
  · rw [← List.singleton_append, shown_append, PathIndex.filed, List.filterMap_append]
    exact (shown_itemsAt registry hl).append hperm

theorem levelAt?_eq (t : LogTree) (path : Option String) :
    t.levelAt? path = t.paths.levelAt? path := by
  cases path <;> rfl

/-- A child is at the path of its level and its name. -/
theorem levelAt?_childPath {t : LogTree} (ht : t.Shelved) {path : Option String} {l : PathIndex}
    (hl : t.levelAt? path = some l) {c : String × PathIndex} (hc : c ∈ l.children)
    (hname : Text.segments c.1 = [c.1]) :
    t.levelAt? (some (PathIndex.childPath path c.1)) = some c.2 := by
  rw [levelAt?_eq] at hl ⊢
  exact ht.tidy.ascending.levelAt?_childPath hl hc hname

/-- **From every level on, what is shown is what is filed there and below**, and so it is from the
group that a level is merged into. -/
theorem whole_of_levelAt {t : LogTree} (ht : t.Shelved) (registry : Registry) {l : PathIndex}
    (hnamed : l.Named fun s => Text.segments s = [s]) {path : Option String}
    (hl : t.levelAt? path = some l) : t.Whole registry path l.filed := by
  rw [levelAt?_eq] at hl
  refine (hnamed.group_induction ht.tidy.ascending (P := fun shown _ l =>
    t.Whole registry shown l.filed) ?_ ?_).1 path hl
  · intro path es cs hl hgroups
    rw [← levelAt?_eq] at hl
    obtain ⟨-, hes, -, -⟩ := ht.tidy_levelAt hl
    exact whole_of_children hl hes hgroups
  · intro shown path name l hwhole
    rwa [PathIndex.filed, PathIndex.filedBelow, PathIndex.filedBelow, List.append_nil,
      List.nil_append]

/-- The flat view shows the entries at all indexes. -/
theorem flatItems_eq (t : LogTree) (registry : Registry) :
    t.flatItems registry = (List.range t.stored.length).filterMap (t.logItem? registry) := by
  rw [List.range_eq_range', ← List.zipIdx_map_snd 0 t.stored, List.filterMap_map, flatItems]
  refine (List.filterMap_eq_map_iff_forall_eq_some.mpr fun x hx => ?_).symm
  rw [Function.comp_apply, logItem?, List.mem_zipIdx_iff_getElem?.mp hx]
  rfl

theorem ids_flatItems (t : LogTree) (registry : Registry) :
    (t.flatItems registry).map (·.1.id) = t.stored.map (·.id) := by
  conv_rhs => rw [← List.zipIdx_map_fst 0 t.stored, List.map_map]
  rw [flatItems, List.map_map]
  exact List.map_congr_left fun x _ => logItem_id registry x.2 x.1

end LogTree

namespace Browsing

/-- **The grouped view and the flat one show the same entries.**  In every tree there can be, the
listing of the levels from the top on comes to an end; without the groups it is the flat view in
another order, in which no two items have one identity; on each level the groups come first and the
entries follow by line, those of one line in the order of arrival; and every index at a level is
that of a stored entry. -/
theorem listing_run (actions : List TreeAction) (registry : Registry) :
    let t := (({} : Browsing).run actions).tree
    (∃ levels, t.ListsTo registry none levels ∧
      (levels.flatten.filter (!·.1.isGroup)).Perm (t.flatItems registry) ∧
      ∀ items ∈ levels, t.InOrder registry items) ∧
    ((t.flatItems registry).map (·.1.id)).Nodup ∧
    ∀ path l, t.levelAt? path = some l → ∀ i ∈ l.entries, i < t.stored.length := by
  intro t
  have ht : t.Shelved := shelved_run actions
  have hnamed : t.paths.Named fun s => Text.segments s = [s] :=
    (indexed_run actions).mono fun s ⟨_, _, hs⟩ => Text.segments_of_mem_segments hs
  have htop : t.levelAt? none = some t.paths := rfl
  obtain ⟨levels, hlevels, horder, hperm⟩ :=
    LogTree.whole_of_levelAt ht registry hnamed htop
  refine ⟨⟨levels, hlevels, ?_, horder⟩, ?_, fun path l hl i hi => ?_⟩
  · rw [LogTree.flatItems_eq]
    exact hperm.trans (ht.filed.filterMap _)
  · rw [LogTree.ids_flatItems]
    exact (filed_run actions).nodup_ids
  · obtain ⟨hbound, -, -, -⟩ := ht.tidy_levelAt hl
    exact hbound i hi

end Browsing

end ConsoleLens
