import ConsoleLens.Proofs.Tree.Expansion

/-!
# Proofs/Tree/Recall — when an identity keeps naming one node

Between two changes of the tree, with the settings, the maps and the page's answers as they are, the
editor only **looks**: it asks for children and is answered.  A node has the same children whenever
it is opened (`childrenOf`), so what an identity comes to depends on the node that it names by then.

* `Shows` — the nodes that an identity may name, by any way down the tree;
* `Unambiguous` — **no two of them have different children**;
* `keepsIdentities_of_unambiguous` — then every query for an identity comes to the same items,
  however late it is made or answered;
* `unambiguous_of_keepsIdentities` — and not otherwise, where all that has been handed out could be
  handed out afresh (`Current`).
-/

namespace ConsoleLens

/-! ## Looking -/

/-- A query for children, or the answer to the one of a ticket. -/
inductive Look where
  | ask (parent : Option String)
  | answer (ticket : Nat)

/-- What a look does to a tree. -/
def Look.action (e : Surroundings) : Look → TreeAction
  | .ask parent => .query e parent
  | .answer ticket => .resume e ticket

namespace Browsing

/-- The state after looks in the same surroundings. -/
def look (b : Browsing) (e : Surroundings) (looks : List Look) : Browsing :=
  b.run (looks.map (Look.action e))

@[simp] theorem look_nil (b : Browsing) (e : Surroundings) : b.look e [] = b := rfl

@[simp] theorem look_cons (b : Browsing) (e : Surroundings) (l : Look) (rest : List Look) :
    b.look e (l :: rest) = (b.step (l.action e)).2.look e rest := rfl

theorem look_append (b : Browsing) (e : Surroundings) (as bs : List Look) :
    b.look e (as ++ bs) = (b.look e as).look e bs := by
  rw [look, List.map_append, run_append]
  rfl

/-- **What a query for the children of a node comes to**: its items at once, or the answer that it
gets after other looks. -/
def reply (b : Browsing) (e : Surroundings) (id : String) (between : List Look) :
    Option (List Item) :=
  match b.step (.query e (some id)) with
  | (some items, _) => some items
  | (none, asked) => ((asked.look e between).step (.resume e b.waiting.length)).1

end Browsing

namespace LogTree

/-- **An identity that has been handed out keeps its children**: whatever is looked at, every query
for it comes to the same items. -/
def KeepsIdentities (t : LogTree) (e : Surroundings) : Prop :=
  ∀ (looks : List Look) (id : String),
    (Browsing.look ⟨t, []⟩ e looks).tree.arena.contains id →
      ∃ items, ∀ more between : List Look,
        .answer (Browsing.look ⟨t, []⟩ e (looks ++ more)).waiting.length ∉ between →
          (Browsing.look ⟨t, []⟩ e (looks ++ more)).reply e id between = some items

/-! ## The children of a node -/

/-- What a node comes to when it is opened under an identity. -/
def openingOf (t : LogTree) (registry : Registry) (id : String) (n : Node) : Opening :=
  { t with arena := Arena.empty.insert id n }.opening registry id

/-- **The children of a node**, properties as the page answers for them. -/
def handoutsOf (t : LogTree) (e : Surroundings) (id : String) (n : Node) : List Handout :=
  if t.ready then
    match t.openingOf e.registry id n with
    | .ready hs => hs
    | .fetch f =>
      (e.properties f.handle e.settings.showEnumerable).map
        (propertyItem (f.formatter e.registry) f)
  else []

/-- The items of a node's children. -/
def childrenOf (t : LogTree) (e : Surroundings) (id : String) (n : Node) : List Item :=
  (t.handoutsOf e id n).map (·.1)

theorem openingOf_group (t : LogTree) (registry : Registry) (id path : String) :
    t.openingOf registry id (.group path) = .ready (t.itemsAt registry (some path)) := by
  simp only [openingOf, opening, Arena.get?_insert, if_true]
  rfl

theorem openingOf_entry {t : LogTree} {index : Nat} {s : FiledEntry} (registry : Registry)
    (id : String) (hs : t.stored[index]? = some s) :
    t.openingOf registry id (.entry index) = .ready (argItems registry index id s.entry) := by
  simp [openingOf, opening, hs]

theorem openingOf_value_of_none (t : LogTree) (registry : Registry) (id : String) (index : Nat)
    {p : Preview} (hp : p.handle = none) :
    t.openingOf registry id (.value index p) = .ready [] := by
  simp [openingOf, opening, hp]

theorem openingOf_value_of_some (t : LogTree) (registry : Registry) (id : String) (index : Nat)
    {p : Preview} {handle : String} (hp : p.handle = some handle) :
    t.openingOf registry id (.value index p) =
      .fetch { parent := id, handle, entry := index,
               generatedUrl := (t.stored[index]?.map (·.entry.generatedUrl)).getD "",
               generation := t.generation } := by
  simp [openingOf, opening, hp]

/-- **Opening an identity is opening the node that it names.** -/
theorem opening_eq_openingOf {t : LogTree} {id : String} {n : Node} (registry : Registry)
    (h : t.arena.get? id = some n) : t.opening registry id = t.openingOf registry id n := by
  simp only [openingOf, opening, h, Arena.get?_insert, if_true]
  rfl

/-- A fetch is made for the identity that is opened, in the tree that it is opened in. -/
theorem openingOf_eq_fetch {t : LogTree} {registry : Registry} {id : String} {n : Node} {f : Fetch}
    (h : t.openingOf registry id n = .fetch f) : f.parent = id ∧ f.generation = t.generation := by
  obtain ⟨-, -, -, hparent, hgen⟩ := opening_eq_fetch h
  exact ⟨hparent, hgen⟩

/-! ## Which nodes an identity may name -/

/-- **An identity may name a node**: it names it already, or as a part of the top level, or as a
child of a node that another identity may name. -/
inductive Shows (t : LogTree) (e : Surroundings) : String → Node → Prop where
  | known {id : String} {n : Node} (h : t.arena.get? id = some n) : Shows t e id n
  | top {id : String} {n : Node} (hready : t.ready) (hloaded : t.phase = .loaded)
      (h : lastNamed id (t.topItems e.registry e.settings) = some n) : Shows t e id n
  | child {parent id : String} {m n : Node} (hm : Shows t e parent m)
      (h : lastNamed id (t.handoutsOf e parent m) = some n) : Shows t e id n

/-- **No identity may name nodes with different children.** -/
def Unambiguous (t : LogTree) (e : Surroundings) : Prop :=
  ∀ id n n', t.Shows e id n → t.Shows e id n' → t.childrenOf e id n = t.childrenOf e id n'

/-- **All that has been handed out could be handed out afresh**, as when nothing has been. -/
def Current (t : LogTree) (e : Surroundings) : Prop :=
  ∀ id n, t.arena.get? id = some n → Shows { t with arena := {} } e id n

theorem current_of_fresh {t : LogTree} (h : t.arena = {}) (e : Surroundings) : t.Current e := by
  intro id n hn
  rw [h] at hn
  cases hn

/-- In a current tree, the ways down from the top are all there are. -/
theorem Shows.afresh {t : LogTree} {e : Surroundings} (hcurrent : t.Current e) {id : String}
    {n : Node} (h : t.Shows e id n) : Shows { t with arena := {} } e id n := by
  induction h with
  | known h => exact hcurrent _ _ h
  | top hr hp h => exact .top hr hp h
  | child _ h ih => exact .child ih h

/-- What a query waits for in the middle of looking: the page, or the properties of a value that an
identity may name and that is still known. -/
def Pends (t : LogTree) (e : Surroundings) (arena : Arena) : Waiting → Prop
  | .load settings => t.ready ∧ settings = e.settings
  | .properties settings f => t.ready ∧ settings = e.settings ∧ arena.contains f.parent ∧
      ∃ n, t.Shows e f.parent n ∧ t.openingOf e.registry f.parent n = .fetch f

/-- The children of a value, once its properties are known. -/
theorem handoutsOf_of_fetch {t : LogTree} {e : Surroundings} {id : String} {n : Node} {f : Fetch}
    (hr : t.ready) (h : t.openingOf e.registry id n = .fetch f) :
    t.handoutsOf e id n = (e.properties f.handle e.settings.showEnumerable).map
      (propertyItem (f.formatter e.registry) f) := by
  simp only [handoutsOf, hr, if_true, h]

theorem handoutsOf_of_ready {t : LogTree} {e : Surroundings} {id : String} {n : Node}
    {hs : List Handout} (hr : t.ready) (h : t.openingOf e.registry id n = .ready hs) :
    t.handoutsOf e id n = hs := by
  simp only [handoutsOf, hr, if_true, h]

/-- What waits goes on waiting while more is handed out. -/
theorem Pends.handOut {t u : LogTree} {e : Surroundings} {w : Waiting} (h : t.Pends e u.arena w)
    (hs : List Handout) : t.Pends e (u.handOut hs).2.arena w := by
  cases w with
  | load settings => exact h
  | properties settings f =>
    obtain ⟨hr, hsettings, hc, hn⟩ := h
    exact ⟨hr, hsettings, contains_handOut hc hs, hn⟩

end LogTree

/-! ## What looking keeps -/

/-- **A state that looking may lead to**: the tree has changed in its arena only, an identity names
only what it may name, and what waits is still of use. -/
structure Browsing.Sound (t : LogTree) (e : Surroundings) (b : Browsing) : Prop where
  tree : b.tree = { t with arena := b.tree.arena }
  names : ∀ id n, b.tree.arena.get? id = some n → t.Shows e id n
  waits : ∀ ticket w, b.waitingAt ticket = some w → t.Pends e b.tree.arena w

namespace Browsing

variable {t : LogTree} {e : Surroundings} {b : Browsing}

theorem sound_start (t : LogTree) (e : Surroundings) : Sound t e ⟨t, []⟩ :=
  ⟨rfl, fun _ _ h => .known h, fun _ _ h => by simp [waitingAt] at h⟩

namespace Sound

theorem ready (h : Sound t e b) : b.tree.ready = t.ready := by rw [h.tree]

theorem phase (h : Sound t e b) : b.tree.phase = t.phase := by rw [h.tree]

theorem generation (h : Sound t e b) : b.tree.generation = t.generation := by rw [h.tree]

theorem topItems (h : Sound t e b) (registry : Registry) (settings : Settings) :
    b.tree.topItems registry settings = t.topItems registry settings := by
  rw [h.tree]
  rfl

/-- An identity that names a node opens it. -/
theorem opening (h : Sound t e b) {id : String} {n : Node} (hn : b.tree.arena.get? id = some n)
    (registry : Registry) : b.tree.opening registry id = t.openingOf registry id n := by
  rw [LogTree.opening_eq_openingOf registry hn, h.tree]
  rfl

/-- Handing out what may be named, while no other query comes to wait. -/
theorem handOut (h : Sound t e b) {hs : List Handout}
    (hshows : ∀ id n, LogTree.lastNamed id hs = some n → t.Shows e id n)
    {ws : List (Option Waiting)}
    (hws : ∀ ticket w, waitingAt ⟨(b.tree.handOut hs).2, ws⟩ ticket = some w →
      b.waitingAt ticket = some w) : Sound t e ⟨(b.tree.handOut hs).2, ws⟩ := by
  refine ⟨?_, fun id n hn => ?_, fun ticket w hw => ?_⟩
  · rw [LogTree.handOut_snd]
    exact h.tree ▸ rfl
  · rw [LogTree.get?_handOut, Option.or_eq_some_iff] at hn
    rcases hn with hn | ⟨-, hn⟩
    · exact hshows id n hn
    · exact h.names id n hn
  · exact (h.waits ticket w (hws ticket w hw)).handOut hs

/-- A query comes to wait. -/
theorem wait (h : Sound t e b) {w : Waiting} (hw : t.Pends e b.tree.arena w) :
    Sound t e ⟨b.tree, b.waiting ++ [some w]⟩ := by
  refine ⟨h.tree, h.names, fun ticket w' hw' => ?_⟩
  rcases eq_or_waitingAt_of_append hw' with rfl | hw'
  · exact hw
  · exact h.waits ticket w' hw'

/-- **What waits for properties gets the children of a node** that its identity may name, which are
handed out. -/
theorem step_resume (h : Sound t e b) {ticket : Nat} {settings : Settings} {f : Fetch}
    (hw : b.waitingAt ticket = some (.properties settings f)) :
    ∃ n, t.Shows e f.parent n ∧ t.openingOf e.registry f.parent n = .fetch f ∧
      b.step (.resume e ticket) = (some (t.childrenOf e f.parent n),
        ⟨(b.tree.handOut (t.handoutsOf e f.parent n)).2, b.waiting.set ticket none⟩) := by
  obtain ⟨hr, rfl, hknown, n, hn, hfetch⟩ := h.waits ticket _ hw
  have hgen : b.tree.generation = f.generation :=
    h.generation.trans (LogTree.openingOf_eq_fetch hfetch).2.symm
  refine ⟨n, hn, hfetch, ?_⟩
  rw [step_resume_properties hw, LogTree.receive_eq, if_pos ⟨hgen, hknown⟩,
    LogTree.childrenOf, LogTree.handoutsOf_of_fetch hr hfetch]
  rfl

/-- A query for what an identity names: the children of the node, or a fetch for them. -/
theorem step_query (h : Sound t e b) (hr : t.ready) {id : String} {n : Node}
    (hn : b.tree.arena.get? id = some n) :
    (b.step (.query e (some id)) = (some (t.childrenOf e id n),
      ⟨(b.tree.handOut (t.handoutsOf e id n)).2, b.waiting⟩)) ∨
    ∃ f, t.openingOf e.registry id n = .fetch f ∧
      b.step (.query e (some id)) =
        (none, ⟨b.tree, b.waiting ++ [some (.properties e.settings f)]⟩) := by
  rw [step_query_some (h.ready.trans hr), h.opening hn]
  cases ho : t.openingOf e.registry id n with
  | ready hs =>
    rw [LogTree.childrenOf, LogTree.handoutsOf_of_ready hr ho]
    exact .inl rfl
  | fetch f => exact .inr ⟨f, rfl, rfl⟩

/-- A query hands out the top level or the children of a node, waits for them, or does nothing. -/
theorem ask (h : Sound t e b) (parent : Option String) :
    Sound t e (b.step (.query e parent)).2 := by
  by_cases hr : t.ready
  · cases parent with
    | none =>
      rw [step_query_none (h.ready.trans hr), h.topItems, h.phase]
      by_cases hp : t.phase = .loaded
      · rw [if_pos hp]
        exact h.handOut (fun id n hn => .top hr hp hn) fun _ _ hw => hw
      · rw [if_neg hp]
        exact h.wait ⟨hr, rfl⟩
    | some id =>
      cases hn : b.tree.arena.get? id with
      | none =>
        rw [step_query_some (h.ready.trans hr)]
        simp only [LogTree.opening, hn]
        exact h
      | some n =>
        rcases h.step_query hr hn with hstep | ⟨f, hfetch, hstep⟩
        · rw [hstep]
          exact h.handOut (fun _ _ hc => .child (h.names id n hn) hc) fun _ _ hw => hw
        · obtain ⟨rfl, -⟩ := LogTree.openingOf_eq_fetch hfetch
          rw [hstep]
          exact h.wait ⟨hr, rfl, (Arena.contains_iff _ _).mpr ⟨n, hn⟩, n, h.names _ n hn, hfetch⟩
  · rw [step_query_of_not_ready (h.ready ▸ hr)]
    exact h

/-- An answer hands out what was waited for, if it is of use by now. -/
theorem answer (h : Sound t e b) (ticket : Nat) : Sound t e (b.step (.resume e ticket)).2 := by
  cases hw : b.waitingAt ticket with
  | none =>
    rw [step_resume_of_none hw]
    exact h
  | some w =>
    cases w with
    | load settings =>
      obtain ⟨hr, rfl⟩ := h.waits ticket _ hw
      rw [step_resume_load hw, h.topItems, h.phase]
      by_cases hp : t.phase = .loaded
      · rw [if_pos hp]
        exact h.handOut (fun id n hn => .top hr hp hn) fun _ _ => waitingAt_of_set
      · rw [if_neg hp]
        exact h
    | properties settings f =>
      obtain ⟨n, hn, -, hstep⟩ := h.step_resume hw
      rw [hstep]
      exact h.handOut (fun _ _ hc => .child hn hc) fun _ _ => waitingAt_of_set

/-- **Looking leads from one such state to another.** -/
theorem look (h : Sound t e b) (looks : List Look) : Sound t e (b.look e looks) := by
  induction looks generalizing b with
  | nil => exact h
  | cons l rest ih =>
    cases l with
    | ask parent => exact ih (h.ask parent)
    | answer ticket => exact ih (h.answer ticket)

/-- **A fetch comes to the children of the node that it was made for**, after any other looks. -/
theorem step_resume_later (h : Sound t e b) (hr : t.ready) {id : String} {n : Node} {f : Fetch}
    (hfetch : t.openingOf e.registry id n = .fetch f)
    (hstep : b.step (.query e (some id)) =
      (none, ⟨b.tree, b.waiting ++ [some (.properties e.settings f)]⟩))
    {between : List Look} (hopen : .answer b.waiting.length ∉ between) :
    let late := (b.step (.query e (some id))).2.look e between
    late.step (.resume e b.waiting.length) = (some (t.childrenOf e id n),
      ⟨(late.tree.handOut (t.handoutsOf e id n)).2, late.waiting.set b.waiting.length none⟩) := by
  intro late
  have hlate : Sound t e late := (h.ask (some id)).look between
  have hwaits : late.waitingAt b.waiting.length = some (.properties e.settings f) := by
    refine waitingAt_run _ _ ?_ fun e' hmem => ?_
    · rw [hstep]
      exact waitingAt_append_length _ _ _
    · obtain ⟨l, hl, hl'⟩ := List.mem_map.mp hmem
      cases l with
      | ask parent => cases hl'
      | answer ticket => cases hl'; exact hopen hl
  obtain ⟨m, -, hm, hans⟩ := hlate.step_resume hwaits
  obtain ⟨rfl, -⟩ := LogTree.openingOf_eq_fetch hfetch
  rw [hans, LogTree.childrenOf, LogTree.childrenOf, LogTree.handoutsOf_of_fetch hr hm,
    LogTree.handoutsOf_of_fetch hr hfetch]

/-- **A query comes to the children of the node that is named when it is made**, however late it is
answered. -/
theorem reply (h : Sound t e b) {id : String} {n : Node} (hn : b.tree.arena.get? id = some n)
    {between : List Look} (hopen : .answer b.waiting.length ∉ between) :
    b.reply e id between = some (t.childrenOf e id n) := by
  by_cases hr : t.ready
  · rcases h.step_query hr hn with hstep | ⟨f, hfetch, hstep⟩
    · rw [Browsing.reply, hstep]
    · have hans := h.step_resume_later hr hfetch hstep hopen
      rw [hstep] at hans
      simp only [Browsing.reply, hstep, hans]
  · have hq := LogTree.query_eq_of_not_ready (h.ready ▸ hr) e.registry e.settings (some id)
    simp only [Browsing.reply, Browsing.step, hq, LogTree.childrenOf, LogTree.handoutsOf, hr]
    rfl

end Sound

theorem contains_look {id : String} (h : b.tree.arena.contains id) (looks : List Look) :
    (b.look e looks).tree.arena.contains id := by
  refine contains_run _ b h fun a ha => ?_
  obtain ⟨l, -, rfl⟩ := List.mem_map.mp ha
  cases l <;> exact Bool.false_ne_true

/-- What has a way down from the top can be made to be named. -/
theorem exists_look_of_shows {id : String} {n : Node}
    (hs : LogTree.Shows { t with arena := {} } e id n) :
    ∀ {b : Browsing}, Sound t e b → ∃ looks, (b.look e looks).tree.arena.get? id = some n := by
  induction hs with
  | known h => cases h
  | top hr hp h =>
    intro b hb
    have hq := LogTree.query_none_eq (hb.ready.trans hr) e.registry e.settings
    rw [hb.topItems, hb.phase, if_pos hp] at hq
    refine ⟨[.ask none], ?_⟩
    simp only [look_cons, look_nil, Look.action, step, hq, LogTree.get?_handOut]
    exact Option.or_eq_some_iff.mpr (.inl h)
  | @child parent id m n _ h ih =>
    change LogTree.lastNamed id (t.handoutsOf e parent m) = some n at h
    intro b hb
    obtain ⟨looks, hm⟩ := ih hb
    have hr : t.ready := by
      by_cases hr : t.ready
      · exact hr
      · simp [LogTree.handoutsOf, hr, LogTree.lastNamed] at h
    have hnamed (u : LogTree) : (u.handOut (t.handoutsOf e parent m)).2.arena.get? id = some n := by
      rw [LogTree.get?_handOut, h]
      rfl
    rcases (hb.look looks).step_query hr hm with hstep | ⟨f, hfetch, hstep⟩
    · refine ⟨looks ++ [.ask (some parent)], ?_⟩
      rw [look_append, look_cons, look_nil, Look.action, hstep]
      exact hnamed _
    · have hans := (hb.look looks).step_resume_later hr hfetch hstep List.not_mem_nil
      refine ⟨looks ++ [.ask (some parent), .answer (b.look e looks).waiting.length], ?_⟩
      rw [look_append, look_cons, look_cons, look_nil, Look.action, Look.action]
      rw [look_nil] at hans
      rw [hans]
      exact hnamed _

end Browsing

namespace LogTree

/-- **When no identity may name two different nodes, each keeps its children.** -/
theorem keepsIdentities_of_unambiguous {t : LogTree} {e : Surroundings} (h : t.Unambiguous e) :
    t.KeepsIdentities e := by
  intro looks id hknown
  have hsound := (Browsing.sound_start t e).look looks
  obtain ⟨n, hn⟩ := (Arena.contains_iff _ _).mp hknown
  refine ⟨t.childrenOf e id n, fun more between hopen => ?_⟩
  rw [Browsing.look_append] at hopen ⊢
  obtain ⟨n', hn'⟩ := (Arena.contains_iff _ _).mp (Browsing.contains_look hknown more)
  have hmore := hsound.look more
  rw [hmore.reply hn' hopen, h id n n' (hsound.names id n hn) (hmore.names id n' hn')]

/-- **An identity that may name two different nodes is not kept**: it can be made to name one of
them and then the other. -/
theorem unambiguous_of_keepsIdentities {t : LogTree} {e : Surroundings} (hcurrent : t.Current e)
    (h : t.KeepsIdentities e) : t.Unambiguous e := by
  intro id n n' hs hs'
  have hstart := Browsing.sound_start t e
  obtain ⟨looks, hn⟩ := Browsing.exists_look_of_shows (hs.afresh hcurrent) hstart
  have hsound := hstart.look looks
  obtain ⟨more, hn'⟩ := Browsing.exists_look_of_shows (hs'.afresh hcurrent) hsound
  obtain ⟨items, hitems⟩ := h looks id ((Arena.contains_iff _ _).mpr ⟨n, hn⟩)
  have hfirst := hitems [] [] (by simp)
  have hlater := hitems more [] (by simp)
  rw [List.append_nil, hsound.reply hn (by simp)] at hfirst
  rw [Browsing.look_append, (hsound.look more).reply hn' (by simp)] at hlater
  exact Option.some.inj (hfirst.trans hlater.symm)

end LogTree

end ConsoleLens
