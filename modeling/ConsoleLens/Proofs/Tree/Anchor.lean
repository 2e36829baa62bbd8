import ConsoleLens.Proofs.Tree.Identity
import ConsoleLens.Proofs.Tree.Place

/-!
# Proofs/Tree/Anchor — what has been handed out holds on to the entries that show

A node names an entry by its index, and so does a fetch that waits for properties, while the stored
entries are dropped and built again.  Both stay **anchored**:

    identity  =  identity of the stored entry at the index  ++  the way down from there

`anchored_run` proves it for every node of the arena, and for every fetch as long as the tree is the
one that it was made in.  A rebuild takes all nodes away and leaves the fetches behind in an older
generation; everything else only adds to what is stored.  A group holds on to the index of paths
instead: **it is found there, and an entry lies there or below.**
-/

namespace ConsoleLens

/-- **An entry anchors an identity**: it shows at the index, and the identity starts with its. -/
def LogTree.Anchors (t : LogTree) (id : String) (index : Nat) (s : FiledEntry) : Prop :=
  t.stored[index]? = some s ∧ ∃ rest, id = s.id ++ rest

/-- **A node does not dangle** under an identity: a group is found with an entry there or below, and
any other node belongs to an entry that anchors the identity. -/
def Node.Anchored (t : LogTree) (id : String) : Node → Prop
  | .group path =>
    ∃ l, t.paths.findPath? path = some l ∧ ∃ i ∈ l.filed, ∃ s, t.stored[i]? = some s
  | .entry index => ∃ s, t.Anchors id index s
  | .value index _ => ∃ s, t.Anchors id index s

/-- **A fetch does not dangle**: it is made for the script of an entry that anchors its value. -/
def Fetch.Anchored (t : LogTree) (f : Fetch) : Prop :=
  ∃ s, t.Anchors f.parent f.entry s ∧ f.generatedUrl = s.entry.generatedUrl

/-- Each node of a list is anchored under the identity that it is handed out with. -/
def LogTree.AllAnchored (t : LogTree) (hs : List Handout) : Prop :=
  ∀ h ∈ hs, h.2.Anchored t h.1.id

/-- What a node comes to is anchored. -/
def Opening.Anchored (t : LogTree) : Opening → Prop
  | .ready hs => t.AllAnchored hs
  | .fetch f => f.Anchored t

namespace LogTree

variable {t u : LogTree} {id : String}

/-! ## More entries -/

theorem stored_prefix_fileAll (t : LogTree) (entries : List LogEntry) :
    t.stored <+: (t.fileAll entries).stored := by
  induction entries generalizing t with
  | nil => exact List.prefix_rfl
  | cons e rest ih => exact (List.prefix_append _ _).trans (ih (t.file e))

/-- An addition leaves the entries that show where they are. -/
theorem stored_prefix_add (t : LogTree) (entries : List LogEntry) :
    t.stored <+: (t.add entries).stored := by
  unfold add
  split
  · exact List.prefix_rfl
  · exact t.stored_prefix_fileAll entries

theorem Anchors.mono (hstored : t.stored <+: u.stored) {index : Nat} {s : FiledEntry}
    (h : t.Anchors id index s) : u.Anchors id index s := by
  obtain ⟨hs, hid⟩ := h
  obtain ⟨more, hmore⟩ := hstored
  have hindex : index < t.stored.length := (List.getElem?_eq_some_iff.mp hs).1
  exact ⟨by rw [← hmore, List.getElem?_append_left hindex, hs], hid⟩

/-- What an identity is extended by leaves it anchored. -/
theorem Anchors.append {index : Nat} {s : FiledEntry} (h : t.Anchors id index s) (more : String) :
    t.Anchors (id ++ more) index s := by
  obtain ⟨hs, rest, rfl⟩ := h
  exact ⟨hs, rest ++ more, String.append_assoc⟩

/-- **More entries leave every node anchored.** -/
theorem InPlace.anchored_mono (ht : t.InPlace) (hu : u.InPlace) (hstored : t.stored <+: u.stored)
    {n : Node} (h : n.Anchored t id) : n.Anchored u id := by
  cases n with
  | group path =>
    obtain ⟨s, hs, hpath⟩ := (ht.located.findPath?_iff ht.shelved path).mp h
    exact (hu.located.findPath?_iff hu.shelved path).mpr ⟨s, hstored.subset hs, hpath⟩
  | entry index =>
    obtain ⟨s, hs⟩ := h
    exact ⟨s, hs.mono hstored⟩
  | value index p =>
    obtain ⟨s, hs⟩ := h
    exact ⟨s, hs.mono hstored⟩

/-! ## What is handed out -/

/-- **The group that a level is shown as is found**, with all that is filed at the level or
below. -/
theorem findPath?_compact (ht : t.Shelved) {l : PathIndex} {path : String} (label : String)
    (hnamed : l.Named fun s => Text.segments s = [s]) (hl : t.paths.findPath? path = some l) :
    ∃ l', t.paths.findPath? (l.compact path label).path = some l' ∧ l'.filed = l.filed := by
  refine (hnamed.group_induction ht.tidy.ascending (P := fun shown _ l =>
    ∃ l', t.paths.levelAt? shown = some l' ∧ l'.filed = l.filed) ?_ ?_).2 path label hl
  · intro path es cs hl _
    exact ⟨_, hl, rfl⟩
  · rintro shown path name l ⟨l', hl', hfiled⟩
    exact ⟨l', hl', by simp [hfiled, PathIndex.filed, PathIndex.filedBelow]⟩

/-- A level lists groups that are found, with an entry there or below. -/
theorem InPlace.anchored_branchItem (ht : t.InPlace) {path : Option String} {l : PathIndex}
    (hl : t.levelAt? path = some l) {g : PathBranch} (hg : g ∈ l.groups path) :
    (branchItem g).2.Anchored t (branchItem g).1.id := by
  obtain ⟨hname, hbelow⟩ := ht.named_levelAt hl
  obtain ⟨-, hplaced, hfull⟩ := ht.located.placed_levelAt hl
  obtain ⟨c, hc, rfl⟩ := List.mem_map.mp hg
  have hchild := levelAt?_childPath ht.shelved hl hc (hname c hc)
  obtain ⟨l', hl', hfiled⟩ := findPath?_compact ht.shelved c.1 (hbelow c hc) hchild
  obtain ⟨i, hi⟩ := List.exists_mem_of_ne_nil _ (hfull c hc)
  obtain ⟨-, s, hs, -⟩ := (hplaced c hc).of_mem_filed i hi
  exact ⟨l', hl', i, hfiled ▸ hi, s, hs⟩

theorem anchored_logItem (registry : Registry) {i : Nat} {s : FiledEntry}
    (hs : t.stored[i]? = some s) :
    (logItem registry i s).2.Anchored t (logItem registry i s).1.id := by
  have hanchors : t.Anchors s.id i s := ⟨hs, "", String.append_empty.symm⟩
  rw [logItem_id]
  rcases logItem_snd registry i s with h | ⟨p, h⟩
  · rw [h]
    exact ⟨s, hanchors⟩
  · rw [h]
    exact ⟨s, hanchors⟩

theorem InPlace.anchored_itemsAt (ht : t.InPlace) (registry : Registry) (path : Option String) :
    t.AllAnchored (t.itemsAt registry path) := by
  intro h hmem
  rcases mem_itemsAt hmem with ⟨l, g, hl, hg, rfl⟩ | ⟨i, s, hs, rfl⟩
  · exact ht.anchored_branchItem hl hg
  · exact anchored_logItem registry hs

theorem InPlace.anchored_topItems (ht : t.InPlace) (registry : Registry) (settings : Settings) :
    t.AllAnchored (t.topItems registry settings) := by
  unfold topItems
  split
  · exact ht.anchored_itemsAt registry none
  · intro h hmem
    obtain ⟨i, s, hs, rfl⟩ := mem_flatItems hmem
    exact anchored_logItem registry hs

theorem Anchors.argItems {index : Nat} {s : FiledEntry} (h : t.Anchors id index s)
    (registry : Registry) (e : LogEntry) : t.AllAnchored (argItems registry index id e) := by
  intro x hmem
  obtain ⟨j, p, -, rfl⟩ := mem_argItems hmem
  refine ⟨s, ?_⟩
  rw [argItem, entryId, String.append_assoc, String.append_assoc]
  exact h.append _

/-- **Opening an anchored node comes to what is anchored.** -/
theorem InPlace.anchored_opening (ht : t.InPlace) (registry : Registry)
    (harena : ∀ n, t.arena.get? id = some n → n.Anchored t id) :
    (t.opening registry id).Anchored t := by
  cases hn : t.arena.get? id with
  | none =>
    simp only [opening, hn]
    exact List.forall_mem_nil _
  | some n =>
    have hanchored := harena n hn
    rw [opening_eq_openingOf registry hn]
    cases n with
    | group path =>
      rw [openingOf_group]
      exact ht.anchored_itemsAt registry (some path)
    | entry index =>
      obtain ⟨s, hs⟩ := hanchored
      rw [openingOf_entry registry id hs.1]
      exact hs.argItems registry s.entry
    | value index p =>
      obtain ⟨s, hs⟩ := hanchored
      cases hp : p.handle with
      | none =>
        rw [openingOf_value_of_none t registry id index hp]
        exact List.forall_mem_nil _
      | some handle =>
        rw [openingOf_value_of_some t registry id index hp]
        exact ⟨s, hs, by simp [hs.1]⟩

/-- The properties of a value belong to its entry. -/
theorem anchored_propertyItems {f : Fetch} (h : f.Anchored t) (registry : Registry)
    (ps : List Property) : t.AllAnchored (ps.map (propertyItem (f.formatter registry) f)) := by
  intro x hmem
  obtain ⟨p, -, rfl⟩ := List.mem_map.mp hmem
  obtain ⟨s, hs, -⟩ := h
  refine ⟨s, ?_⟩
  rw [propertyItem, propertyId, String.append_assoc, String.append_assoc]
  exact hs.append _

end LogTree

/-! ## Runs -/

/-- **Nothing dangles**: every node of the arena is anchored, and every fetch that waits is of an
older tree or anchored. -/
structure Browsing.Anchored (b : Browsing) : Prop where
  names : ∀ id n, b.tree.arena.get? id = some n → n.Anchored b.tree id
  waits : ∀ ticket settings f, b.waitingAt ticket = some (.properties settings f) →
    f.generation ≤ b.tree.generation ∧ (f.generation = b.tree.generation → f.Anchored b.tree)

namespace Browsing.Anchored

variable {b : Browsing}

theorem fresh : Anchored {} where
  names _ _ h := nomatch h
  waits _ _ _ h := by simp [waitingAt] at h

/-- A rebuild takes all nodes away, and all fetches are of an older tree then. -/
theorem rebuild (h : b.Anchored) {t : LogTree} (harena : t.arena = {})
    (hgeneration : t.generation = b.tree.generation + 1) : Anchored { b with tree := t } := by
  refine ⟨fun id n hn => ?_, fun ticket settings f hf => ?_⟩
  · rw [harena] at hn
    cases hn
  · have hle := (h.waits ticket settings f hf).1
    rw [hgeneration]
    exact ⟨by omega, fun heq => absurd heq (by omega)⟩

/-- Handing out an anchored list, while no other query comes to wait. -/
theorem handOut (h : b.Anchored) {hs : List Handout} (hhs : b.tree.AllAnchored hs)
    {ws : List (Option Waiting)} (hws : ∀ ticket w, waitingAt ⟨(b.tree.handOut hs).2, ws⟩ ticket =
      some w → b.waitingAt ticket = some w) : Anchored ⟨(b.tree.handOut hs).2, ws⟩ := by
  refine ⟨fun id n hn => ?_, fun ticket settings f hf => h.waits ticket settings f (hws _ _ hf)⟩
  change n.Anchored b.tree id
  rw [LogTree.get?_handOut, Option.or_eq_some_iff] at hn
  rcases hn with hn | ⟨-, hn⟩
  · obtain ⟨item, hmem, rfl⟩ := LogTree.mem_of_lastNamed hn
    exact hhs _ hmem
  · exact h.names id n hn

/-- A query that lists children, or waits for the properties of a value. -/
theorem query (h : b.Anchored) (ht : b.tree.InPlace) (e : Surroundings) (parent : Option String) :
    (b.step (.query e parent)).2.Anchored := by
  by_cases hr : b.tree.ready
  · cases parent with
    | none =>
      rw [step_query_none hr]
      by_cases hp : b.tree.phase = .loaded
      · rw [if_pos hp]
        exact h.handOut (ht.anchored_topItems _ _) fun _ _ hw => hw
      · rw [if_neg hp]
        refine ⟨h.names, fun ticket settings f hf => ?_⟩
        rcases eq_or_waitingAt_of_append hf with hw | hw
        · cases hw
        · exact h.waits ticket settings f hw
    | some id =>
      have hopening := ht.anchored_opening e.registry (h.names id)
      rw [step_query_some hr]
      cases ho : b.tree.opening e.registry id with
      | ready hs =>
        rw [ho] at hopening
        exact h.handOut hopening fun _ _ hw => hw
      | fetch f =>
        rw [ho] at hopening
        obtain ⟨-, -, -, -, hgeneration⟩ := LogTree.opening_eq_fetch ho
        refine ⟨h.names, fun ticket settings f' hf => ?_⟩
        rcases eq_or_waitingAt_of_append hf with hw | hw
        · cases hw
          exact ⟨hgeneration.le, fun _ => hopening⟩
        · exact h.waits ticket settings f' hw
  · rw [step_query_of_not_ready hr]
    exact h

/-- **An answer hands out properties of the tree that they were asked for in.** -/
theorem resume (h : b.Anchored) (ht : b.tree.InPlace) (e : Surroundings) (ticket : Nat) :
    (b.step (.resume e ticket)).2.Anchored := by
  cases hw : b.waitingAt ticket with
  | none =>
    rw [step_resume_of_none hw]
    exact h
  | some w =>
    cases w with
    | load settings =>
      rw [step_resume_load hw]
      by_cases hp : b.tree.phase = .loaded
      · rw [if_pos hp]
        exact h.handOut (ht.anchored_topItems _ _) fun _ _ => waitingAt_of_set
      · rw [if_neg hp]
        exact h
    | properties settings f =>
      rw [step_resume_properties hw, LogTree.receive_eq]
      split
      · next hcurrent =>
        have hf := (h.waits ticket settings f hw).2 hcurrent.1.symm
        exact h.handOut (LogTree.anchored_propertyItems hf _ _) fun _ _ => waitingAt_of_set
      · exact h.handOut (List.forall_mem_nil _) fun _ _ => waitingAt_of_set

/-- **Whatever happens leaves nothing dangling.** -/
theorem step (h : b.Anchored) (a : TreeAction) (ht : b.tree.InPlace)
    (ht' : (b.step a).2.tree.InPlace) : (b.step a).2.Anchored := by
  cases a with
  | add entries =>
    have hstored := b.tree.stored_prefix_add entries
    refine ⟨fun id n hn => ?_, fun ticket settings f hf => ?_⟩
    · change (b.tree.add entries).arena.get? id = some n at hn
      rw [LogTree.add_arena] at hn
      exact ht.anchored_mono ht' hstored (h.names id n hn)
    · obtain ⟨hle, hanchored⟩ := h.waits ticket settings f hf
      change f.generation ≤ (b.tree.add entries).generation ∧
        (f.generation = (b.tree.add entries).generation → f.Anchored (b.tree.add entries))
      rw [LogTree.add_generation]
      refine ⟨hle, fun heq => ?_⟩
      obtain ⟨s, hs, hurl⟩ := hanchored heq
      exact ⟨s, hs.mono hstored, hurl⟩
  | load => exact h.rebuild (by rw [LogTree.load, LogTree.fileAll_eq]; rfl) b.tree.load_generation
  | clear => exact h.rebuild rfl rfl
  | reset => exact h.rebuild rfl rfl
  | serve ready => exact ⟨h.names, h.waits⟩
  | query e parent => exact h.query ht e parent
  | resume e ticket => exact h.resume ht e ticket

end Browsing.Anchored

namespace Browsing

/-- **Nothing that has been handed out dangles**, after every run of additions, loads, clears and
resets with queries and answers in between.  A node other than a group belongs to a stored entry,
and its identity starts with the entry's; a group is found in the index of paths, with a stored
entry there or below; and properties that wait to be shown in the tree that they were asked for in
are those of a stored entry, and are shown with its script. -/
theorem anchored_run (actions : List TreeAction) :
    let b := ({} : Browsing).run actions
    (∀ id n, b.tree.arena.get? id = some n → n.Anchored b.tree id) ∧
    ∀ ticket settings f, b.waitingAt ticket = some (.properties settings f) →
      f.generation = b.tree.generation → f.Anchored b.tree := by
  have hanchored : (({} : Browsing).run actions).Anchored := by
    induction actions using List.reverseRecOn with
    | nil => exact .fresh
    | append_singleton actions a ih =>
      have hstep : ({} : Browsing).run (actions ++ [a]) =
          ((({} : Browsing).run actions).step a).2 := run_append _ _ _
      have ht' := inPlace_run (actions ++ [a])
      rw [hstep] at ht' ⊢
      exact ih.step a (inPlace_run actions) ht'
  exact ⟨hanchored.names, fun ticket settings f hf =>
    (hanchored.waits ticket settings f hf).2⟩

/-- An object is opened in the flat view, and then the groups are shown: object and group are
anchored, and so is the fetch for the object's properties. -/
theorem anchored_run_loggedObject :
    let asked := ({} : Browsing).run [.load, .add [loggedObject], .query flatPage none,
      .query flatPage (some "/a.ts:1:1[0]")]
    let b := asked.run [.query {} none]
    let object := Node.value 0 ((loggedObject.previews {}).headD {})
    let fetch : Fetch := ⟨"/a.ts:1:1[0]", "h", 0, "", 1⟩
    (b.tree.arena.get? "/a.ts:1:1[0]" = some object ∧ object.Anchored b.tree "/a.ts:1:1[0]") ∧
    (b.tree.arena.get? "a.ts" = some (.group "a.ts") ∧
      (Node.group "a.ts").Anchored b.tree "a.ts") ∧
    b.waitingAt 0 = some (.properties flatPage.settings fetch) ∧ fetch.Anchored b.tree := by
  intro asked b object fetch
  have hrun := anchored_run [.load, .add [loggedObject], .query flatPage none,
    .query flatPage (some "/a.ts:1:1[0]"), .query {} none]
  have hobject : b.tree.arena.get? "/a.ts:1:1[0]" = some object := by decide +kernel
  have hgroup : b.tree.arena.get? "a.ts" = some (.group "a.ts") := by decide +kernel
  have hfetch : b.waitingAt 0 = some (.properties flatPage.settings fetch) :=
    waitingAt_run [.query {} none] asked rfl (by simp)
  have hgeneration : fetch.generation = b.tree.generation := by decide +kernel
  exact ⟨⟨hobject, hrun.1 _ _ hobject⟩, ⟨hgroup, hrun.1 _ _ hgroup⟩, hfetch,
    hrun.2 _ _ _ hfetch hgeneration⟩

end Browsing

end ConsoleLens
