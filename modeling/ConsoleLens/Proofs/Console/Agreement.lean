import ConsoleLens.Proofs.Console.Run
import ConsoleLens.Proofs.Tree.Arrival

/-!
# Proofs/Console/Agreement — the console and its tree have the same entries

The console keeps the entries of a navigation, and its tree keeps them once more, stored or pending.
Each operation changes the two by itself: what it does to the tree is a short list of
`TreeAction`s (`step_tree`), so that **whatever holds of trees holds of the tree of a console**.

    console  ──action──▸  console
       │ tree                │ tree
      tree  ──treeActions──▸ tree

`logs_eq_stored_append_pending` compares the two stores, over every run and whatever the settings
are at each action; and on a loaded page the tree has loaded too.
-/

namespace ConsoleLens

/-- The query that an action comes back to. -/
def ConsoleAction.waiting : ConsoleAction → List (Option Waiting)
  | .resume w => [some w]
  | _ => []

namespace Console

/-! ## The tree of a console -/

/-- **What an action does to the tree**, in the tree's own actions. -/
def treeActions (c : Console) (e : Surroundings) : ConsoleAction → List TreeAction
  | .start => [.serve true]
  | .stop => [.clear, .serve false]
  | .update => [if e.settings.groupByPath then .reset else .clear]
  | .load => if c.loadCount + 1 = e.settings.loadsNeeded then [.load] else []
  | .query parent => [.query e parent]
  | .resume _ => [.resume e 0]
  | a => (a.recorded? e).toList.map fun entry => .add [entry]

theorem record_tree (c : Console) (e : Surroundings) (entry : LogEntry) :
    (c.record e entry).1.tree = c.tree.add [entry] := by
  simp only [record]
  split <;> rfl

/-- **The tree after an action** is what the tree's own actions make of it. -/
theorem step_tree (c : Console) (e : Surroundings) (a : ConsoleAction) :
    (c.step e a).1.tree =
      ((⟨c.tree, a.waiting⟩ : Browsing).run (c.treeActions e a)).tree := by
  have hrecord (h : c.step e a = (a.recorded? e).elim (c, []) (c.record e)) :
      (c.step e a).1.tree = ((⟨c.tree, []⟩ : Browsing).run
        ((a.recorded? e).toList.map fun entry => .add [entry])).tree := by
    rw [h]
    cases a.recorded? e with
    | none => rfl
    | some entry => exact record_tree c e entry
  cases a with
  | log entry => exact hrecord (step_log c e entry)
  | ingest event => exact hrecord (step_ingest c e event)
  | update =>
    simp only [step, update, treeActions, Browsing.run_cons]
    split <;> rfl
  | load =>
    simp only [step, load, treeActions]
    by_cases h : c.loadCount + 1 = e.settings.loadsNeeded
    · simp only [h, ne_eq, not_true_eq_false, if_true, if_false]
      rfl
    · simp only [h, ne_eq, not_false_eq_true, if_true, if_false]
      rfl
  | documentChanged path dirty =>
    simp only [step, documentChanged]
    split <;> rfl
  | query parent =>
    simp only [step, treeActions, Browsing.run_cons, Browsing.run_nil, Browsing.step]
    rcases c.tree.query_cases e.registry e.settings parent with ⟨hs, -, hq⟩ | ⟨w, hq⟩ <;> rw [hq]
  | resume w =>
    have hwaiting : (⟨c.tree, [some w]⟩ : Browsing).waitingAt 0 = some w := rfl
    simp only [step, treeActions, ConsoleAction.waiting, Browsing.run_cons, Browsing.run_nil,
      Browsing.step, hwaiting, Option.bind_some]
    cases c.tree.answer? e w <;> rfl
  | _ => rfl

/-! ## The phase -/

/-- **The phase**: a navigation makes grouped entries wait; the last load that is needed and a stop
let them show. -/
theorem step_phase (c : Console) (e : Surroundings) (a : ConsoleAction) :
    (c.step e a).1.tree.phase =
      match a with
      | .stop => .loaded
      | .update => if e.settings.groupByPath then .pending else .loaded
      | .load => if c.loadCount + 1 = e.settings.loadsNeeded then .loaded else c.tree.phase
      | _ => c.tree.phase := by
  rw [step_tree, Browsing.phase_run]
  have hrecord (added? : Option LogEntry) :
      (added?.toList.map fun entry => TreeAction.add [entry]).foldl TreeAction.phaseAfter
        c.tree.phase = c.tree.phase := by
    cases added? <;> rfl
  cases a with
  | log entry => exact hrecord _
  | ingest event => exact hrecord _
  | update =>
    simp only [treeActions]
    split <;> rfl
  | load =>
    simp only [treeActions]
    split <;> rfl
  | _ => rfl

/-! ## The entries -/

theorem apart_step {c : Console} (h : c.tree.Apart) (e : Surroundings) (a : ConsoleAction) :
    (c.step e a).1.tree.Apart := by
  rw [step_tree]
  exact Browsing.apart_run_of h _

theorem apart_reached (workspace : DocumentPath) (actions : List (Surroundings × ConsoleAction)) :
    (reached workspace actions).tree.Apart :=
  reached_induction (P := fun c => c.tree.Apart) workspace LogTree.apart_empty
    (fun _ e a h => apart_step h e a) actions

/-- **The entries of the tree**: an action adds one at most, or all are dropped. -/
theorem step_known {c : Console} (h : c.tree.Apart) (e : Surroundings) (a : ConsoleAction) :
    (c.step e a).1.tree.known =
      if a.forgets then [] else c.tree.known ++ (a.recorded? e).toList := by
  have hapart : (⟨c.tree, a.waiting⟩ : Browsing).tree.Apart := h
  rw [step_tree, Browsing.known_run_of hapart]
  have hrecord (added? : Option LogEntry) :
      (added?.toList.map fun entry => TreeAction.add [entry]).foldl
        (fun known a => if a.drops then [] else known ++ a.batch) c.tree.known =
          c.tree.known ++ added?.toList := by
    cases added? with
    | none => exact (List.append_nil _).symm
    | some entry => rfl
  cases a with
  | log entry => exact hrecord _
  | ingest event => exact hrecord _
  | update =>
    simp only [treeActions]
    split <;> rfl
  | load =>
    simp only [treeActions]
    split
    · rfl
    · exact (List.append_nil _).symm
  | willSave => exact (List.append_nil _).symm
  | activate document => exact (List.append_nil _).symm
  | documentChanged path dirty => exact (List.append_nil _).symm
  | _ => rfl

theorem known_reached (workspace : DocumentPath) (actions : List (Surroundings × ConsoleAction)) :
    (reached workspace actions).tree.known = (reached workspace actions).logs := by
  induction actions using List.reverseRecOn with
  | nil => rfl
  | append_singleton actions x ih =>
    rw [reached_concat, step_known (apart_reached workspace actions), step_logs, ih]

/-- The load that loads the page loads the tree, and what makes the tree wait again unloads the
page. -/
theorem phase_step_of_loaded {c : Console} (h : c.loaded → c.tree.phase = .loaded)
    (e : Surroundings) (a : ConsoleAction) (hloaded : (c.step e a).1.loaded) :
    (c.step e a).1.tree.phase = .loaded := by
  rw [step_loaded] at hloaded
  rw [step_phase]
  cases a with
  | load =>
    by_cases hcount : c.loadCount + 1 = e.settings.loadsNeeded
    · exact if_pos hcount
    · rw [decide_eq_false hcount, Bool.or_false] at hloaded
      exact (if_neg hcount).trans (h hloaded)
  | stop => rfl
  | update => cases hloaded
  | willSave => cases hloaded
  | _ => exact h hloaded

theorem phase_of_loaded (workspace : DocumentPath)
    (actions : List (Surroundings × ConsoleAction)) :
    (reached workspace actions).loaded → (reached workspace actions).tree.phase = .loaded :=
  reached_induction (P := fun c => c.loaded → c.tree.phase = .loaded) workspace nofun
    (fun _ e a h => phase_step_of_loaded h e a) actions

/-- **The tree has the entries of the console**, those that show and then those that wait, after
every run and whatever the maps and the settings are at each action; and once the page has loaded,
so has the tree. -/
theorem logs_eq_stored_append_pending (workspace : DocumentPath)
    (actions : List (Surroundings × ConsoleAction)) :
    (reached workspace actions).logs =
        (reached workspace actions).tree.entries ++ (reached workspace actions).tree.pending ∧
      ((reached workspace actions).loaded → (reached workspace actions).tree.phase = .loaded) :=
  ⟨(known_reached workspace actions).symm, phase_of_loaded workspace actions⟩

end Console

end ConsoleLens
