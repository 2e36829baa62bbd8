import ConsoleLens.Tree.Query

/-!
# Proofs/Tree/Browsing — a tree, and the queries that wait for an answer

The editor makes queries while entries come and go.  A query that has to wait takes a **ticket**,
the number of such queries before it, and is answered whenever the page gets to it: in any order,
with anything in between.  What a query reads beside the tree is its **surroundings**, which may be
others at every action.

    fresh tree ──add · load · clear · reset · serve · query · resume──▸ every tree there can be

`step_look` says once what a query or an answer can do to a tree: **it hands out one list of
items**, and `Lists` says where that list comes from.
-/

namespace ConsoleLens

/-- **What a query reads beside the tree**: the maps, the settings in force, and what the page
answers to the two queries for the properties of a handle, own ones and accessors. -/
structure Surroundings where
  registry : Registry := {}
  settings : Settings := {}
  answers : String → Option PropertiesAnswer × Option PropertiesAnswer := fun _ => (none, none)

/-- The properties of a handle, as the page answers for it. -/
def Surroundings.properties (e : Surroundings) (handle : String) (showEnumerable : Bool) :
    List Property :=
  Property.ofAnswers (e.answers handle).1 (e.answers handle).2 showEnumerable

/-- What the properties of a fetch are shown with. -/
def Fetch.formatter (f : Fetch) (registry : Registry) : Formatter :=
  { registry := some registry, fallbackUrl := some f.generatedUrl }

namespace LogTree

/-! ## Handing out a list -/

/-- The node that a list names under an identity: the last one of it. -/
def lastNamed (id : String) : List Handout → Option Node
  | [] => none
  | (item, n) :: rest => (lastNamed id rest).or (if id = item.id then some n else none)

theorem get?_foldl_insert (id : String) : ∀ (hs : List Handout) (a : Arena),
    (hs.foldl (fun a (i, n) => a.insert i.id n) a).get? id = (lastNamed id hs).or (a.get? id)
  | [], _ => rfl
  | (item, n) :: rest, a => by
      rw [List.foldl_cons, get?_foldl_insert id rest, Arena.get?_insert, lastNamed]
      cases lastNamed id rest with
      | some m => rfl
      | none => split <;> rfl

/-- **After a list has been handed out, its identities name its nodes** and all others what they
named before. -/
theorem get?_handOut (t : LogTree) (hs : List Handout) (id : String) :
    (t.handOut hs).2.arena.get? id = (lastNamed id hs).or (t.arena.get? id) :=
  get?_foldl_insert id hs t.arena

/-- The last node of an identity is one of the list. -/
theorem mem_of_lastNamed {id : String} {n : Node} {hs : List Handout}
    (h : lastNamed id hs = some n) : ∃ item, (item, n) ∈ hs ∧ item.id = id := by
  induction hs with
  | nil => cases h
  | cons x rest ih =>
    rw [lastNamed, Option.or_eq_some_iff] at h
    rcases h with h | ⟨-, h⟩
    · obtain ⟨item, hmem, hid⟩ := ih h
      exact ⟨item, List.mem_cons_of_mem _ hmem, hid⟩
    · by_cases hid : id = x.1.id
      · rw [if_pos hid] at h
        obtain rfl := Option.some.inj h
        exact ⟨x.1, List.mem_cons_self, hid.symm⟩
      · rw [if_neg hid] at h
        cases h

@[simp] theorem handOut_fst (t : LogTree) (hs : List Handout) :
    (t.handOut hs).1 = hs.map (·.1) := rfl

/-- Handing out a list changes nothing but the arena. -/
theorem handOut_snd (t : LogTree) (hs : List Handout) :
    (t.handOut hs).2 = { t with arena := (t.handOut hs).2.arena } := rfl

/-- What has been handed out stays known. -/
theorem contains_handOut {t : LogTree} {id : String} (h : t.arena.contains id)
    (hs : List Handout) : (t.handOut hs).2.arena.contains id := by
  obtain ⟨n, hn⟩ := (Arena.contains_iff _ _).mp h
  refine (Arena.contains_iff _ _).mpr ?_
  rw [get?_handOut, hn]
  cases lastNamed id hs with
  | some m => exact ⟨m, rfl⟩
  | none => exact ⟨n, rfl⟩

/-! ## Where a list comes from -/

/-- **The lists that a query may come to**: nothing, the top level, the children of a node, or the
properties of a value that is still known. -/
inductive Lists (t : LogTree) : List Handout → Prop where
  | nothing : Lists t []
  | top (registry : Registry) (settings : Settings) (h : t.phase = .loaded) :
      Lists t (t.topItems registry settings)
  | below (registry : Registry) (id : String) (hs : List Handout)
      (h : t.opening registry id = .ready hs) : Lists t hs
  | properties (registry : Registry) (f : Fetch) (ps : List Property)
      (hg : t.generation = f.generation) (hp : t.arena.contains f.parent) :
      Lists t (ps.map (propertyItem (f.formatter registry) f))

/-- The top level is listed once the page has loaded. -/
theorem root?_eq (t : LogTree) (registry : Registry) (settings : Settings) :
    t.root? registry settings =
      if t.phase = .loaded then some (t.handOut (t.topItems registry settings)) else none := by
  unfold root?
  cases h : t.phase <;> simp

/-- Properties are shown below a value that is still known, and dropped otherwise. -/
theorem receive_eq (t : LogTree) (registry : Registry) (f : Fetch) (ps : List Property) :
    t.receive registry f ps =
      if t.generation = f.generation ∧ t.arena.contains f.parent then
        t.handOut (ps.map (propertyItem (f.formatter registry) f))
      else ([], t) := by
  unfold receive
  by_cases hg : t.generation = f.generation
  · cases hc : t.arena.contains f.parent <;> simp [hg, Fetch.formatter]
  · simp [hg]

/-- Before the editor may ask, there is nothing. -/
theorem query_eq_of_not_ready {t : LogTree} (hr : ¬ t.ready) (registry : Registry)
    (settings : Settings) (parent : Option String) :
    t.query registry settings parent = (.items [], t) := by
  simp [query, hr]

/-- A query for the top level lists it, or waits for the page to load. -/
theorem query_none_eq {t : LogTree} (hr : t.ready) (registry : Registry) (settings : Settings) :
    t.query registry settings none =
      if t.phase = .loaded then
        (.items ((t.topItems registry settings).map (·.1)),
          (t.handOut (t.topItems registry settings)).2)
      else (.waiting (.load settings), t) := by
  simp only [query, hr, Bool.not_true, Bool.false_eq_true, if_false, root?_eq]
  by_cases hp : t.phase = .loaded
  · rw [if_pos hp, if_pos hp]
    rfl
  · rw [if_neg hp, if_neg hp]

/-- What an opened node comes to: its children, or a query for its properties. -/
theorem query_some_eq {t : LogTree} (hr : t.ready) (registry : Registry) (settings : Settings)
    (id : String) :
    t.query registry settings (some id) =
      match t.opening registry id with
      | .ready hs => (.items (hs.map (·.1)), (t.handOut hs).2)
      | .fetch f => (.waiting (.properties settings f), t) := by
  simp only [query, hr, Bool.not_true, Bool.false_eq_true, if_false]
  cases t.opening registry id <;> rfl

/-- A query lists children, or it waits and leaves the tree as it is. -/
theorem query_cases (t : LogTree) (registry : Registry) (settings : Settings)
    (parent : Option String) :
    (∃ hs, t.Lists hs ∧ t.query registry settings parent =
      (.items (hs.map (·.1)), (t.handOut hs).2)) ∨
    ∃ w, t.query registry settings parent = (.waiting w, t) := by
  by_cases hr : t.ready
  · cases parent with
    | none =>
      rw [query_none_eq hr]
      split
      · next hp => exact .inl ⟨_, .top registry settings hp, rfl⟩
      · exact .inr ⟨_, rfl⟩
    | some id =>
      rw [query_some_eq hr]
      cases ho : t.opening registry id with
      | ready hs => exact .inl ⟨hs, .below registry id hs ho, rfl⟩
      | fetch f => exact .inr ⟨_, rfl⟩
  · exact .inl ⟨[], .nothing, query_eq_of_not_ready hr registry settings parent⟩

/-- **What a query that waited comes to**, if it does not wait on: the top level once the page has
loaded, the properties of a value at once. -/
def answer? (t : LogTree) (e : Surroundings) : Waiting → Option (List Item × LogTree)
  | .load settings => t.root? e.registry settings
  | .properties settings f =>
    some (t.receive e.registry f (e.properties f.handle settings.showEnumerable))

/-- An answer hands out one list. -/
theorem answer?_cases (t : LogTree) (e : Surroundings) (w : Waiting) :
    (∃ hs, t.Lists hs ∧ t.answer? e w = some (t.handOut hs)) ∨ t.answer? e w = none := by
  cases w with
  | load settings =>
    rw [answer?, root?_eq]
    split
    · next hp => exact .inl ⟨_, .top e.registry settings hp, rfl⟩
    · exact .inr rfl
  | properties settings f =>
    rw [answer?, receive_eq]
    split
    · next h => exact .inl ⟨_, .properties e.registry f _ h.1 h.2, rfl⟩
    · exact .inl ⟨[], .nothing, rfl⟩

end LogTree

/-! ## Browsing -/

/-- **A tree with the queries that waited**, by ticket; an answered one leaves its place empty. -/
structure Browsing where
  tree : LogTree := {}
  waiting : List (Option Waiting) := []

/-- One thing that happens to a tree. -/
inductive TreeAction where
  | add (entries : List LogEntry)
  | load
  | clear
  | reset
  | serve (ready : Bool)
  | query (e : Surroundings) (parent : Option String)
  | resume (e : Surroundings) (ticket : Nat)

/-- Whether all that was handed out becomes invalid. -/
def TreeAction.rebuilds : TreeAction → Bool
  | .load | .clear | .reset => true
  | _ => false

/-- Whether the editor asks or is answered. -/
def TreeAction.looks : TreeAction → Bool
  | .query .. | .resume .. => true
  | _ => false

namespace Browsing

/-- The query of a ticket, as long as it waits. -/
def waitingAt (b : Browsing) (ticket : Nat) : Option Waiting := b.waiting[ticket]?.join

/-- **What an action does**, with the list of items that the editor gets, if it gets one. -/
def step (b : Browsing) : TreeAction → Option (List Item) × Browsing
  | .add entries => (none, { b with tree := b.tree.add entries })
  | .load => (none, { b with tree := b.tree.load })
  | .clear => (none, { b with tree := b.tree.clear })
  | .reset => (none, { b with tree := b.tree.reset })
  | .serve ready => (none, { b with tree := b.tree.serve ready })
  | .query e parent =>
    match b.tree.query e.registry e.settings parent with
    | (.items items, t) => (some items, { b with tree := t })
    | (.waiting w, t) => (none, ⟨t, b.waiting ++ [some w]⟩)
  | .resume e ticket =>
    match (b.waitingAt ticket).bind (b.tree.answer? e) with
    | none => (none, b)
    | some (items, t) => (some items, ⟨t, b.waiting.set ticket none⟩)

/-- The state after actions, one after the other. -/
def run (b : Browsing) (actions : List TreeAction) : Browsing :=
  actions.foldl (fun b a => (b.step a).2) b

@[simp] theorem run_nil (b : Browsing) : b.run [] = b := rfl

@[simp] theorem run_cons (b : Browsing) (a : TreeAction) (rest : List TreeAction) :
    b.run (a :: rest) = (b.step a).2.run rest := rfl

theorem run_append (b : Browsing) (as bs : List TreeAction) :
    b.run (as ++ bs) = (b.run as).run bs := List.foldl_append

/-! ## Queries and answers -/

/-- A tree that does not serve lists nothing. -/
theorem step_query_of_not_ready {b : Browsing} (hr : ¬ b.tree.ready) (e : Surroundings)
    (parent : Option String) : b.step (.query e parent) = (some [], b) := by
  simp only [step, LogTree.query_eq_of_not_ready hr]

/-- **A query for the top level** lists it, or waits for the page to load. -/
theorem step_query_none {b : Browsing} (hr : b.tree.ready) (e : Surroundings) :
    let hs := b.tree.topItems e.registry e.settings
    b.step (.query e none) =
      if b.tree.phase = .loaded then
        (some (hs.map (·.1)), ⟨(b.tree.handOut hs).2, b.waiting⟩)
      else (none, ⟨b.tree, b.waiting ++ [some (.load e.settings)]⟩) := by
  simp only [step, LogTree.query_none_eq hr]
  by_cases hp : b.tree.phase = .loaded
  · simp only [if_pos hp]
  · simp only [if_neg hp]

/-- **A query for the children of a node** lists them, or waits for properties. -/
theorem step_query_some {b : Browsing} (hr : b.tree.ready) (e : Surroundings) (id : String) :
    b.step (.query e (some id)) =
      match b.tree.opening e.registry id with
      | .ready hs => (some (hs.map (·.1)), ⟨(b.tree.handOut hs).2, b.waiting⟩)
      | .fetch f => (none, ⟨b.tree, b.waiting ++ [some (.properties e.settings f)]⟩) := by
  simp only [step, LogTree.query_some_eq hr]
  cases b.tree.opening e.registry id <;> rfl

/-- Nothing comes of a ticket that does not wait. -/
theorem step_resume_of_none {b : Browsing} {ticket : Nat} (h : b.waitingAt ticket = none)
    (e : Surroundings) : b.step (.resume e ticket) = (none, b) := by
  simp only [step, h, Option.bind_none]

/-- **The answer to a query for the top level**: once the page has loaded, it is listed under the
settings that the query has kept. -/
theorem step_resume_load {b : Browsing} {ticket : Nat} {settings : Settings}
    (h : b.waitingAt ticket = some (.load settings)) (e : Surroundings) :
    let hs := b.tree.topItems e.registry settings
    b.step (.resume e ticket) =
      if b.tree.phase = .loaded then
        (some (hs.map (·.1)), ⟨(b.tree.handOut hs).2, b.waiting.set ticket none⟩)
      else (none, b) := by
  simp only [step, h, Option.bind_some, LogTree.answer?, LogTree.root?_eq]
  by_cases hp : b.tree.phase = .loaded
  · simp only [if_pos hp, LogTree.handOut_fst]
  · simp only [if_neg hp]

/-- **The answer to a query for properties.** -/
theorem step_resume_properties {b : Browsing} {ticket : Nat} {settings : Settings} {f : Fetch}
    (h : b.waitingAt ticket = some (.properties settings f)) (e : Surroundings) :
    let r := b.tree.receive e.registry f (e.properties f.handle settings.showEnumerable)
    b.step (.resume e ticket) = (some r.1, ⟨r.2, b.waiting.set ticket none⟩) := by
  simp only [step, h, Option.bind_some, LogTree.answer?]

/-- **A query or an answer hands out one list, or does nothing to the tree.** -/
theorem step_look (b : Browsing) {a : TreeAction} (ha : a.looks) :
    (∃ hs, b.tree.Lists hs ∧ (b.step a).1 = some (hs.map (·.1)) ∧
      (b.step a).2.tree = (b.tree.handOut hs).2) ∨
    ((b.step a).1 = none ∧ (b.step a).2.tree = b.tree) := by
  cases a with
  | query e parent =>
    rcases b.tree.query_cases e.registry e.settings parent with ⟨hs, hl, hq⟩ | ⟨w, hq⟩
    · exact .inl ⟨hs, hl, by simp only [step, hq], by simp only [step, hq]⟩
    · exact .inr ⟨by simp only [step, hq], by simp only [step, hq]⟩
  | resume e ticket =>
    cases hw : b.waitingAt ticket with
    | none => exact .inr ⟨by simp only [step, hw, Option.bind_none], by
        simp only [step, hw, Option.bind_none]⟩
    | some w =>
      rcases b.tree.answer?_cases e w with ⟨hs, hl, hq⟩ | hq
      · exact .inl ⟨hs, hl, by simp only [step, hw, Option.bind_some, hq]; rfl, by
          simp only [step, hw, Option.bind_some, hq]⟩
      · exact .inr ⟨by simp only [step, hw, Option.bind_some, hq], by
          simp only [step, hw, Option.bind_some, hq]⟩
  | _ => cases ha

/-- **What holds of a fresh tree and is kept by everything that can happen holds of every tree.**
A query counts as the list that it hands out. -/
theorem run_induction {P : LogTree → Prop} (add : ∀ t entries, P t → P (t.add entries))
    (load : ∀ t, P t → P t.load) (clear : ∀ t, P t → P t.clear) (reset : ∀ t, P t → P t.reset)
    (serve : ∀ t ready, P t → P (t.serve ready))
    (handOut : ∀ t hs, t.Lists hs → P t → P (t.handOut hs).2) :
    ∀ (actions : List TreeAction) (b : Browsing), P b.tree → P (b.run actions).tree
  | [], _, h => h
  | a :: rest, b, h => by
      refine run_induction add load clear reset serve handOut rest (b.step a).2 ?_
      have look (ha : a.looks) : P (b.step a).2.tree := by
        rcases b.step_look ha with ⟨hs, hl, -, ht⟩ | ⟨-, ht⟩
        · exact ht ▸ handOut b.tree hs hl h
        · exact ht ▸ h
      cases a with
      | add entries => exact add _ entries h
      | load => exact load _ h
      | clear => exact clear _ h
      | reset => exact reset _ h
      | serve ready => exact serve _ ready h
      | query e parent => exact look rfl
      | resume e ticket => exact look rfl

/-- **What holds of a tree without entries and is kept when one is filed holds of every tree**, as
long as it says nothing of what filing does not change. -/
theorem filing_induction {P : LogTree → Prop} (forget : ∀ t phase, P (LogTree.forget t phase))
    (file : ∀ t e, P t → P (LogTree.file t e))
    (frame : ∀ (t : LogTree) phase ready generation pending arena,
      P t → P { t with phase, ready, generation, pending, arena }) (actions : List TreeAction) :
    P (({} : Browsing).run actions).tree := by
  have fileAll : ∀ (entries : List LogEntry) (t : LogTree), P t → P (t.fileAll entries) := by
    intro entries
    induction entries with
    | nil => exact fun t h => h
    | cons e rest ih => exact fun t h => ih (t.file e) (file t e h)
  refine run_induction (fun t entries h => ?_) (fun t _ => fileAll _ _ (forget t .loaded))
    (fun t _ => forget t .loaded) (fun t _ => forget t .pending)
    (fun t ready h => frame t _ ready _ _ _ h) (fun t hs _ h => frame t _ _ _ _ _ h) actions {}
    (frame _ .pending true 0 [] {} (forget {} .pending))
  unfold LogTree.add
  split
  · exact frame t _ _ _ (t.pending ++ entries) _ h
  · exact fileAll entries t h

/-! ## Tickets -/

/-- A query that waits takes the next ticket. -/
theorem step_query_waiting {b : Browsing} {e : Surroundings} {parent : Option String} {w : Waiting}
    (h : b.tree.query e.registry e.settings parent = (.waiting w, b.tree)) :
    b.step (.query e parent) = (none, ⟨b.tree, b.waiting ++ [some w]⟩) := by
  simp only [step, h]

theorem lt_length_of_waitingAt {b : Browsing} {ticket : Nat} {w : Waiting}
    (h : b.waitingAt ticket = some w) : ticket < b.waiting.length := by
  refine Nat.lt_of_not_le fun hle => ?_
  rw [waitingAt, List.getElem?_eq_none hle] at h
  cases h

/-- The last ticket is the one of the query that waited last. -/
@[simp] theorem waitingAt_append_length (t : LogTree) (ws : List (Option Waiting)) (w : Waiting) :
    waitingAt ⟨t, ws ++ [some w]⟩ ws.length = some w := by
  simp [waitingAt]

/-- A query that waits after one more has come to wait is that one or waited before. -/
theorem eq_or_waitingAt_of_append {b : Browsing} {t : LogTree} {w w' : Waiting} {ticket : Nat}
    (h : waitingAt ⟨t, b.waiting ++ [some w']⟩ ticket = some w) :
    w = w' ∨ b.waitingAt ticket = some w := by
  rw [waitingAt, List.getElem?_append] at h
  split at h
  · exact .inr h
  · rw [List.getElem?_singleton] at h
    split at h
    · exact .inl (Option.some.inj h).symm
    · cases h

/-- A query that waits after one has been answered waited before. -/
theorem waitingAt_of_set {b : Browsing} {t : LogTree} {w : Waiting} {answered ticket : Nat}
    (h : waitingAt ⟨t, b.waiting.set answered none⟩ ticket = some w) :
    b.waitingAt ticket = some w := by
  rw [waitingAt, List.getElem?_set] at h
  split at h
  · split at h <;> cases h
  · exact h

/-- **A ticket is kept until it is answered.** -/
theorem waitingAt_step {b : Browsing} {ticket : Nat} {w : Waiting} (h : b.waitingAt ticket = some w)
    (a : TreeAction) (ha : ∀ e, a ≠ .resume e ticket) : (b.step a).2.waitingAt ticket = some w := by
  cases a with
  | query e parent =>
    rcases b.tree.query_cases e.registry e.settings parent with ⟨hs, -, hq⟩ | ⟨w', hq⟩
    · simp only [step, hq]
      exact h
    · rw [step_query_waiting hq, ← h]
      simp only [waitingAt, List.getElem?_append_left (lt_length_of_waitingAt h)]
  | resume e other =>
    have hne : other ≠ ticket := fun heq => ha e (heq ▸ rfl)
    simp only [step]
    split
    · exact h
    · rw [← h]
      simp only [waitingAt, List.getElem?_set_ne hne]
  | _ => exact h

theorem waitingAt_run {ticket : Nat} {w : Waiting} :
    ∀ (actions : List TreeAction) (b : Browsing), b.waitingAt ticket = some w →
      (∀ e, .resume e ticket ∉ actions) → (b.run actions).waitingAt ticket = some w
  | [], _, h, _ => h
  | a :: rest, b, h, hopen =>
      waitingAt_run rest (b.step a).2
        (waitingAt_step h a fun e heq => hopen e (heq ▸ List.mem_cons_self))
        fun e hmem => hopen e (List.mem_cons_of_mem a hmem)

end Browsing

end ConsoleLens
