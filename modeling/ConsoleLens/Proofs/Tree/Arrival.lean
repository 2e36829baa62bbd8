import ConsoleLens.Proofs.Tree.Browsing
import Mathlib.Data.List.DropRight

/-!
# Proofs/Tree/Arrival — every entry waits or shows, once and in order

Entries move between two lists, the stored and the pending one, as the phase changes.  **The two are
apart** (`Apart`): while the tree is pending nothing is stored, counted, filed or handed out, and
once it is loaded nothing is pending.  So an addition always goes to the end of *stored then
pending*, a load moves the border between the two and not the entries, and whatever a query lists
while entries wait is empty.
-/

namespace ConsoleLens

namespace LogTree

/-! ## Stored and pending -/

/-- Every entry of a tree, those that show and then those that wait. -/
def known (t : LogTree) : List LogEntry := t.entries ++ t.pending

@[simp] theorem entries_fileAll (t : LogTree) (entries : List LogEntry) :
    (t.fileAll entries).entries = t.entries ++ entries := by
  induction entries generalizing t with
  | nil => simp
  | cons entry rest ih => rw [fileAll_cons, ih]; simp [LogTree.entries, file]

@[simp] theorem phase_load (t : LogTree) : t.load.phase = .loaded := by
  rw [load, fileAll_eq]
  rfl

@[simp] theorem pending_load (t : LogTree) : t.load.pending = [] := by
  rw [load, fileAll_eq]
  rfl

@[simp] theorem entries_load (t : LogTree) : t.load.entries = t.known := by
  rw [load, entries_fileAll]
  rfl

/-- **Entries wait or show, never both.** -/
structure Apart (t : LogTree) : Prop where
  bare : t.phase = .pending → t.stored = [] ∧ t.counters = {} ∧ t.paths = .empty ∧ t.arena = {}
  idle : t.phase = .loaded → t.pending = []

theorem apart_empty : Apart {} := ⟨fun _ => ⟨rfl, rfl, rfl, rfl⟩, fun _ => rfl⟩

theorem apart_forget (t : LogTree) (phase : Phase) : Apart (t.forget phase) :=
  ⟨fun _ => ⟨rfl, rfl, rfl, rfl⟩, fun _ => rfl⟩

theorem apart_load (t : LogTree) : Apart t.load :=
  ⟨fun h => absurd (t.phase_load.symm.trans h) (by simp), fun _ => t.pending_load⟩

theorem Apart.add {t : LogTree} (h : Apart t) (entries : List LogEntry) :
    Apart (t.add entries) := by
  unfold LogTree.add
  split
  · next hp => exact ⟨h.bare, fun hl => absurd (hp.symm.trans hl) (by simp)⟩
  · next hl =>
    rw [fileAll_eq]
    exact ⟨fun hp => absurd (hl.symm.trans hp) (by simp), h.idle⟩

/-- **While entries wait, nothing is listed**: the top level waits too, and nothing has been handed
out that could be opened or answered. -/
theorem Lists.eq_nil_of_pending {t : LogTree} {hs : List Handout} (hl : t.Lists hs)
    (h : Apart t) (hp : t.phase = .pending) : hs = [] := by
  have harena : t.arena = {} := (h.bare hp).2.2.2
  cases hl with
  | nothing => rfl
  | top registry settings hloaded => exact absurd (hp.symm.trans hloaded) (by simp)
  | below registry id hs ho =>
    have hnone : t.arena.get? id = none := by rw [harena]; rfl
    simp only [opening, hnone, Opening.ready.injEq] at ho
    exact ho.symm
  | properties registry f ps hg hc =>
    rw [harena] at hc
    cases hc

/-- **A tree withholds entries**: they all wait, and the top level is not listed, neither to a query
that is made now nor to one that waits. -/
structure Withholds (t : LogTree) (entries : List LogEntry) : Prop where
  waiting : t.pending = entries
  bare : t.entries = []
  unlisted : ∀ (e : Surroundings) items,
    (t.query e.registry e.settings none).1 = .items items → items = []
  unanswered : ∀ (e : Surroundings) settings, t.answer? e (.load settings) = none

theorem Apart.withholds {t : LogTree} (h : Apart t) (hp : t.phase = .pending) :
    t.Withholds t.known := by
  have hloaded : t.phase ≠ .loaded := fun hl => nomatch hp.symm.trans hl
  have hbare : t.entries = [] := by rw [LogTree.entries, (h.bare hp).1, List.map_nil]
  refine ⟨by rw [known, hbare, List.nil_append], hbare, fun e items hitems => ?_,
    fun e settings => ?_⟩
  · by_cases hr : t.ready
    · rw [query_none_eq hr, if_neg hloaded] at hitems
      cases hitems
    · rw [query_eq_of_not_ready hr] at hitems
      exact (Answer.items.inj hitems).symm
  · rw [answer?, root?_eq, if_neg hloaded]

theorem Apart.handOut {t : LogTree} (h : Apart t) {hs : List Handout} (hl : t.Lists hs) :
    Apart (t.handOut hs).2 := by
  refine ⟨fun hp => ?_, h.idle⟩
  rw [hl.eq_nil_of_pending h hp]
  exact h.bare hp

end LogTree

namespace Browsing

/-- Nothing that happens to a tree mixes the two lists. -/
theorem apart_run_of {b : Browsing} (h : b.tree.Apart) (actions : List TreeAction) :
    (b.run actions).tree.Apart :=
  run_induction (fun _ entries h => h.add entries) (fun t _ => t.apart_load)
    (fun t _ => t.apart_forget .loaded) (fun t _ => t.apart_forget .pending)
    (fun _ _ h => ⟨h.bare, h.idle⟩) (fun _ _ hl h => h.handOut hl) actions b h

theorem apart_run (actions : List TreeAction) : (({} : Browsing).run actions).tree.Apart :=
  apart_run_of LogTree.apart_empty actions

end Browsing

/-! ## The phase -/

/-- The phase that an action leaves. -/
def TreeAction.phaseAfter (phase : Phase) : TreeAction → Phase
  | .load | .clear => .loaded
  | .reset => .pending
  | _ => phase

@[simp] theorem LogTree.phase_add (t : LogTree) (entries : List LogEntry) :
    (t.add entries).phase = t.phase := by
  unfold LogTree.add
  split
  · rfl
  · rw [fileAll_eq]

namespace Browsing

/-- **A load or a clear lets entries show, a reset makes them wait**, and nothing else changes the
phase. -/
theorem phase_step (b : Browsing) (a : TreeAction) :
    (b.step a).2.tree.phase = a.phaseAfter b.tree.phase := by
  have look (ha : a.looks) : (b.step a).2.tree.phase = b.tree.phase := by
    rcases b.step_look ha with ⟨hs, -, -, ht⟩ | ⟨-, ht⟩
    · rw [ht, LogTree.handOut_snd]
    · rw [ht]
  cases a with
  | add entries => exact b.tree.phase_add entries
  | load => exact b.tree.phase_load
  | query e parent => exact look rfl
  | resume e ticket => exact look rfl
  | _ => rfl

theorem phase_run (b : Browsing) (actions : List TreeAction) :
    (b.run actions).tree.phase = actions.foldl TreeAction.phaseAfter b.tree.phase := by
  induction actions generalizing b with
  | nil => rfl
  | cons a rest ih => rw [run_cons, ih, phase_step, List.foldl_cons]

end Browsing

/-! ## What has arrived -/

namespace TreeAction

/-- Whether every entry is dropped. -/
def drops : TreeAction → Bool
  | .clear | .reset => true
  | _ => false

/-- The entries that an action adds. -/
def batch : TreeAction → List LogEntry
  | .add entries => entries
  | _ => []

/-- **The batches added since the last clear or reset**, one after the other. -/
def arrivals (actions : List TreeAction) : List LogEntry :=
  (actions.rtakeWhile (!·.drops)).flatMap batch

theorem arrivals_concat (actions : List TreeAction) (a : TreeAction) :
    arrivals (actions ++ [a]) = if a.drops then [] else arrivals actions ++ a.batch := by
  rw [arrivals, List.rtakeWhile_concat]
  cases a.drops with
  | true => rfl
  | false => simp [arrivals]

end TreeAction

namespace Browsing

/-- **An action drops every entry or puts its batch to the end.** -/
theorem known_step {b : Browsing} (h : b.tree.Apart) (a : TreeAction) :
    (b.step a).2.tree.known = if a.drops then [] else b.tree.known ++ a.batch := by
  have look (ha : a.looks) : (b.step a).2.tree.known = b.tree.known := by
    rcases b.step_look ha with ⟨hs, -, -, ht⟩ | ⟨-, ht⟩
    · rw [ht, LogTree.handOut_snd]
      rfl
    · rw [ht]
  cases a with
  | add entries =>
    simp only [step, LogTree.add, TreeAction.drops, TreeAction.batch]
    split
    · simp [LogTree.known, LogTree.entries]
    · next hl =>
      have hpending : (b.tree.fileAll entries).pending = [] := by
        rw [LogTree.fileAll_eq]
        exact h.idle hl
      simp [LogTree.known, hpending, h.idle hl]
  | load => simp [step, LogTree.known, TreeAction.drops, TreeAction.batch]
  | clear => rfl
  | reset => rfl
  | serve ready => exact (List.append_nil _).symm
  | query e parent => exact (look rfl).trans (List.append_nil _).symm
  | resume e ticket => exact (look rfl).trans (List.append_nil _).symm

/-- What a list of actions does to the entries, from whatever there was before. -/
theorem known_run_of {b : Browsing} (h : b.tree.Apart) (actions : List TreeAction) :
    (b.run actions).tree.known =
      actions.foldl (fun known a => if a.drops then [] else known ++ a.batch) b.tree.known := by
  induction actions generalizing b with
  | nil => rfl
  | cons a rest ih =>
    have hstep : (b.step a).2.tree.Apart := apart_run_of h [a]
    rw [run_cons, ih hstep, known_step h, List.foldl_cons]

theorem known_run (actions : List TreeAction) :
    (({} : Browsing).run actions).tree.known = TreeAction.arrivals actions := by
  induction actions using List.reverseRecOn with
  | nil => rfl
  | append_singleton actions a ih =>
    rw [run_append, TreeAction.arrivals_concat, ← ih]
    exact known_step (apart_run actions) a

/-- **Nothing is lost, nothing comes twice, nothing shows early.**  The stored entries and then the
pending ones are what was added since the last clear or reset, in order; a pending tree has nothing
stored, counted, filed or handed out and a loaded one nothing pending; and a list of items that is
not empty is never given while an entry is pending. -/
theorem run_keeps_arrivals (actions : List TreeAction) :
    let b := ({} : Browsing).run actions
    b.tree.entries ++ b.tree.pending = TreeAction.arrivals actions ∧
    (b.tree.phase = .pending → b.tree.stored = [] ∧ b.tree.counters = {} ∧
      b.tree.paths = .empty ∧ b.tree.arena = {}) ∧
    (b.tree.phase = .loaded → b.tree.pending = []) ∧
    ∀ a items, (b.step a).1 = some items → items = [] ∨ b.tree.pending = [] := by
  intro b
  have hapart : b.tree.Apart := apart_run actions
  refine ⟨known_run actions, hapart.bare, hapart.idle, fun a items hitems => ?_⟩
  have look (ha : a.looks) : items = [] ∨ b.tree.pending = [] := by
    rcases b.step_look ha with ⟨hs, hl, hs', -⟩ | ⟨hnone, -⟩
    · cases hp : b.tree.phase with
      | loaded => exact .inr (hapart.idle hp)
      | pending =>
        rw [hl.eq_nil_of_pending hapart hp, hitems] at hs'
        exact .inl (Option.some.inj hs')
    · exact absurd (hnone.symm.trans hitems) (by simp)
  cases a with
  | query e parent => exact look rfl
  | resume e ticket => exact look rfl
  | _ => cases hitems

end Browsing

end ConsoleLens
