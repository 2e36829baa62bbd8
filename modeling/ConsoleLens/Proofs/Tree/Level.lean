import ConsoleLens.Proofs.Tree.Segment
import Mathlib.Data.List.Perm.Basic
import Mathlib.Data.String.Basic

/-!
# Proofs/Tree/Level — what is filed in the index of paths, and where it is found

Filing adds one index to all that is filed in the index of paths, at its place and whatever the
place is (`places_insert`).  Levels are **tidy** at all times: their indexes ascend, in the order of
arrival, and so do the names of their children.  So no child hides another one of its name, and **a
level is found again under the path of its parent and its name** (`Ascending.levelAt?_childPath`),
although the path is text that is cut into segments anew.
-/

namespace ConsoleLens

namespace PathIndex

/-! ## What is filed -/

mutual

/-- **All that is filed at a level or below.** -/
def filed : PathIndex → List Nat
  | .level es cs => es ++ filedBelow cs

/-- All that is filed at levels or below them. -/
def filedBelow : List (String × PathIndex) → List Nat
  | [] => []
  | (_, l) :: rest => l.filed ++ filedBelow rest

end

mutual

/-- **All that is filed at a level or below, with the names that lead there.** -/
def places : PathIndex → List (List String × Nat)
  | .level es cs => es.map ([], ·) ++ placesBelow cs

/-- All that is filed at levels or below them, with the names that lead there. -/
def placesBelow : List (String × PathIndex) → List (List String × Nat)
  | [] => []
  | (name, l) :: rest => l.places.map (Prod.map (name :: ·) id) ++ placesBelow rest

end

mutual

theorem map_snd_places : ∀ l : PathIndex, l.places.map Prod.snd = l.filed
  | .level es cs => by
      rw [places, filed, List.map_append, map_snd_placesBelow cs, List.map_map]
      exact congrArg (· ++ filedBelow cs) (List.map_id es)

theorem map_snd_placesBelow : ∀ cs : List (String × PathIndex),
    (placesBelow cs).map Prod.snd = filedBelow cs
  | [] => rfl
  | (name, l) :: rest => by
      rw [placesBelow, filedBelow, List.map_append, map_snd_placesBelow rest, List.map_map,
        ← map_snd_places l]
      rfl

end

/-- Changing one level so that an index is added at a place adds it to all of them. -/
theorem placesBelow_modifyChild {index : Nat} {segments : List String} (name : String)
    {f : PathIndex → PathIndex} (hf : ∀ l, (f l).places.Perm ((segments, index) :: l.places))
    (cs : List (String × PathIndex)) :
    (placesBelow (modifyChild name f cs)).Perm ((name :: segments, index) :: placesBelow cs) := by
  have hchild (l : PathIndex) : ((f l).places.map (Prod.map (name :: ·) id)).Perm
      ((name :: segments, index) :: l.places.map (Prod.map (name :: ·) id)) := (hf l).map _
  induction cs with
  | nil => exact (hchild empty).append_right []
  | cons first rest ih =>
    obtain ⟨n, l⟩ := first
    unfold modifyChild
    split
    · exact (hchild empty).append_right _
    · split
      · next heq =>
        subst heq
        exact (hchild l).append_right _
      · exact (ih.append_left _).trans List.perm_middle

/-- **Filing adds one index at its place**, under any path. -/
theorem places_insert (index : Nat) : ∀ (segments : List String) (l : PathIndex),
    (insert index segments l).places.Perm ((segments, index) :: l.places)
  | [], .level es cs => by
      simp only [insert, places, List.map_append, List.append_assoc]
      exact List.perm_middle
  | name :: rest, .level es cs =>
      ((placesBelow_modifyChild name (places_insert index rest) cs).append_left _).trans
        List.perm_middle

theorem filed_insert (index : Nat) (segments : List String) (l : PathIndex) :
    (insert index segments l).filed.Perm (index :: l.filed) := by
  rw [← map_snd_places, ← map_snd_places l]
  exact (places_insert index segments l).map Prod.snd

/-! ## Tidy levels -/

/-- **A level is tidy**: the indexes at it are below a bound and ascend, as do the names of its
children, which are tidy. -/
inductive Tidy (n : Nat) : PathIndex → Prop where
  | level {es : List Nat} {cs : List (String × PathIndex)} (hbound : ∀ i ∈ es, i < n)
      (hentries : es.Pairwise (· < ·)) (hnames : cs.Pairwise (·.1 < ·.1))
      (hbelow : ∀ c ∈ cs, Tidy n c.2) : Tidy n (.level es cs)

variable {n : Nat}

theorem tidy_empty : Tidy n empty := .level (by simp) .nil .nil (by simp)

theorem Tidy.mono {n' : Nat} (hn : n ≤ n') {l : PathIndex} (h : Tidy n l) : Tidy n' l := by
  induction h with
  | level hbound hentries hnames _ ih =>
    exact .level (fun i hi => (hbound i hi).trans_le hn) hentries hnames ih

/-- The entries at a tidy level ascend. -/
theorem Tidy.pairwise_entries {l : PathIndex} (h : Tidy n l) : l.entries.Pairwise (· < ·) := by
  obtain ⟨-, hentries, -, -⟩ := h
  exact hentries

/-- Names keep ascending when one of them is looked for its place. -/
theorem pairwise_modifyChild (name : String) (f : PathIndex → PathIndex)
    {cs : List (String × PathIndex)} (h : cs.Pairwise (·.1 < ·.1)) :
    (modifyChild name f cs).Pairwise (·.1 < ·.1) := by
  induction cs with
  | nil => exact List.pairwise_singleton _ _
  | cons first rest ih =>
    obtain ⟨n, l⟩ := first
    obtain ⟨hn, hrest⟩ := List.pairwise_cons.mp h
    unfold modifyChild
    split
    · next hlt =>
      refine List.pairwise_cons.mpr ⟨fun c hc => ?_, h⟩
      rcases List.mem_cons.mp hc with rfl | hc
      · exact hlt
      · exact hlt.trans (hn c hc)
    · next hnlt =>
      split
      · exact List.pairwise_cons.mpr ⟨hn, hrest⟩
      · next hne =>
        have hlt : n < name := lt_of_le_of_ne (not_lt.mp hnlt) (Ne.symm hne)
        refine List.pairwise_cons.mpr ⟨fun c hc => ?_, ih hrest⟩
        rcases mem_modifyChild hc with hc | rfl | ⟨l', -, rfl⟩
        · exact hn c hc
        · exact hlt
        · exact hlt

/-- **Levels stay tidy when the next index is filed.** -/
theorem Tidy.insert : ∀ (segments : List String) {l : PathIndex}, Tidy n l →
    Tidy (n + 1) (insert n segments l)
  | [], _, .level hbound hentries hnames hbelow => by
      refine .level (fun i hi => ?_) ?_ hnames fun c hc => (hbelow c hc).mono (Nat.le_succ n)
      · rcases List.mem_append.mp hi with hi | hi
        · exact Nat.lt_succ_of_lt (hbound i hi)
        · exact List.mem_singleton.mp hi ▸ Nat.lt_succ_self n
      · refine List.pairwise_append.mpr ⟨hentries, List.pairwise_singleton _ _, ?_⟩
        exact fun i hi j hj => List.mem_singleton.mp hj ▸ hbound i hi
  | name :: rest, _, .level hbound hentries hnames hbelow => by
      refine .level (fun i hi => Nat.lt_succ_of_lt (hbound i hi)) hentries
        (pairwise_modifyChild name _ hnames) fun c hc => ?_
      rcases mem_modifyChild hc with hc | rfl | ⟨l, hl, rfl⟩
      · exact (hbelow c hc).mono (Nat.le_succ n)
      · exact Tidy.insert rest tidy_empty
      · exact Tidy.insert rest (hbelow _ hl)

/-! ## Finding levels -/

/-- **The names of children ascend**, at a level and below. -/
inductive Ascending : PathIndex → Prop where
  | level {es : List Nat} {cs : List (String × PathIndex)} (hnames : cs.Pairwise (·.1 < ·.1))
      (hbelow : ∀ c ∈ cs, Ascending c.2) : Ascending (.level es cs)

theorem Tidy.ascending {l : PathIndex} (h : Tidy n l) : Ascending l := by
  induction h with
  | level _ _ hnames _ ih => exact .level hnames ih

theorem ascending_empty : Ascending empty := .level .nil (by simp)

theorem Ascending.insert (index : Nat) : ∀ (segments : List String) {l : PathIndex},
    Ascending l → Ascending (insert index segments l)
  | [], _, .level hnames hbelow => .level hnames hbelow
  | name :: rest, _, .level hnames hbelow => by
      refine .level (pairwise_modifyChild name _ hnames) fun c hc => ?_
      rcases mem_modifyChild hc with hc | rfl | ⟨l, hl, rfl⟩
      · exact hbelow c hc
      · exact Ascending.insert index rest ascending_empty
      · exact Ascending.insert index rest (hbelow _ hl)

theorem Ascending.find? {segments : List String} {l l' : PathIndex} (h : Ascending l)
    (heq : l.find? segments = some l') : Ascending l' :=
  of_find? (fun _ ⟨_, hbelow⟩ => hbelow) h heq

theorem Tidy.find? {segments : List String} {l l' : PathIndex} (h : Tidy n l)
    (heq : l.find? segments = some l') : Tidy n l' :=
  of_find? (fun _ ⟨_, _, _, hbelow⟩ => hbelow) h heq

theorem find?_append : ∀ (xs ys : List String) (l : PathIndex),
    l.find? (xs ++ ys) = (l.find? xs).bind (find? ys)
  | [], _, _ => rfl
  | x :: xs, ys, .level _ cs => by
      simp only [List.cons_append, find?]
      cases cs.lookup x with
      | none => rfl
      | some l => exact find?_append xs ys l

/-- Among ascending names each one is found. -/
theorem lookup_of_mem {cs : List (String × PathIndex)} (h : cs.Pairwise (·.1 < ·.1))
    {c : String × PathIndex} (hc : c ∈ cs) : cs.lookup c.1 = some c.2 := by
  obtain ⟨before, after, rfl⟩ := List.append_of_mem hc
  refine List.lookup_eq_some_iff.mpr ⟨before, after, rfl, fun b hb => ?_⟩
  have hlt : b.1 < c.1 := (List.pairwise_append.mp h).2.2 b hb c List.mem_cons_self
  simpa using hlt.ne'

/-- The level at a path, the root having none. -/
def levelAt? (root : PathIndex) : Option String → Option PathIndex
  | none => some root
  | some path => root.findPath? path

theorem Ascending.levelAt? {root l : PathIndex} {path : Option String} (h : Ascending root)
    (hl : root.levelAt? path = some l) : Ascending l := by
  cases path with
  | none => exact Option.some.inj hl ▸ h
  | some path => exact h.find? hl

/-- **A child is found under its parent's path and its name**, at the root under its name. -/
theorem Ascending.levelAt?_childPath {root l : PathIndex} {path : Option String}
    (h : Ascending root) (hl : root.levelAt? path = some l) {c : String × PathIndex}
    (hc : c ∈ l.children) (hname : Text.segments c.1 = [c.1]) :
    root.levelAt? (some (childPath path c.1)) = some c.2 := by
  have hfind : l.find? [c.1] = some c.2 := by
    obtain ⟨hnames, -⟩ := h.levelAt? hl
    rw [PathIndex.find?, lookup_of_mem hnames hc]
    rfl
  cases path with
  | none =>
    cases hl
    rwa [childPath, PathIndex.levelAt?, findPath?, hname]
  | some path =>
    have hpath : root.find? (Text.segments path) = some l := hl
    rw [childPath, PathIndex.levelAt?, findPath?, Text.segments_append, find?_append, hpath, hname]
    exact hfind

/-- **What the groups of a level hand on to it holds of every level**, if merging a level with its
only child does not matter.  `P shown path l` is about the level `l` at `path`, come to by the path
`shown`, which is its own or that of the group that it is merged into. -/
theorem Named.group_induction {root : PathIndex} (hroot : Ascending root)
    {P : Option String → Option String → PathIndex → Prop}
    (hlevel : ∀ {path es cs}, root.levelAt? path = some (.level es cs) →
      (∀ c ∈ cs, P (some (c.2.compact (childPath path c.1) c.1).path) (some (childPath path c.1))
        c.2) → P path path (.level es cs))
    (hmerge : ∀ {shown path name l}, P shown (some (childPath path name)) l →
      P shown path (.level [] [(name, l)]))
    {l : PathIndex} (hnamed : l.Named fun s => Text.segments s = [s]) :
    (∀ path, root.levelAt? path = some l → P path path l) ∧
    ∀ path label, root.levelAt? (some path) = some l →
      P (some (l.compact path label).path) (some path) l := by
  induction hnamed with
  | @level es cs hname _ ih =>
    have hchild {path : Option String} (hl : root.levelAt? path = some (.level es cs))
        {c : String × PathIndex} (hc : c ∈ cs) (label : String) :
        P (some (c.2.compact (childPath path c.1) label).path) (some (childPath path c.1)) c.2 :=
      (ih c hc).2 _ label (hroot.levelAt?_childPath hl hc (hname c hc))
    have hhere : ∀ path, root.levelAt? path = some (.level es cs) → P path path (.level es cs) :=
      fun path hl => hlevel hl fun c hc => hchild hl hc c.1
    refine ⟨hhere, fun path label hl => ?_⟩
    -- the level is merged with its only child, or it is not
    unfold PathIndex.compact
    split
    · next name _ _ _ heq =>
      cases heq
      exact hmerge (hchild hl List.mem_cons_self (label ++ "/" ++ name))
    · exact hhere (some path) hl

end PathIndex

/-! ## The index of a tree -/

namespace LogTree

/-- **Every entry that shows is filed, once**, and the levels are tidy. -/
structure Shelved (t : LogTree) : Prop where
  tidy : t.paths.Tidy t.stored.length
  filed : t.paths.filed.Perm (List.range t.stored.length)

theorem Shelved.file {t : LogTree} (h : Shelved t) (e : LogEntry) : Shelved (t.file e) := by
  have hlength : (t.file e).stored.length = t.stored.length + 1 := by simp [LogTree.file]
  refine ⟨hlength ▸ h.tidy.insert _, ?_⟩
  rw [hlength, List.range_succ]
  exact (t.paths.filed_insert _ _).trans
    ((h.filed.cons _).trans (List.perm_append_singleton _ _).symm)

/-- The level at a path is tidy. -/
theorem Shelved.tidy_levelAt {t : LogTree} (h : Shelved t) {path : Option String} {l : PathIndex}
    (hl : t.levelAt? path = some l) : l.Tidy t.stored.length := by
  cases path with
  | none => exact Option.some.inj hl ▸ h.tidy
  | some path => exact h.tidy.find? hl

end LogTree

theorem Browsing.shelved_run (actions : List TreeAction) :
    (({} : Browsing).run actions).tree.Shelved :=
  filing_induction (fun _ _ => ⟨PathIndex.tidy_empty, .nil⟩) (fun _ e h => h.file e)
    (fun _ _ _ _ _ _ h => ⟨h.tidy, h.filed⟩) actions

end ConsoleLens
