import ConsoleLens.Console.Basic
import ConsoleLens.Proofs.Tree.Browsing
import Mathlib.Data.List.DropRight

/-!
# Proofs/Console/Run — a console, action by action

The page loads and logs; the editor switches documents, edits and saves them, and asks the tree in
between.  Maps and settings are read afresh by every action, so **each action meets surroundings of
its own**.

    start ──(surroundings, action)──▸ console, notices ──(surroundings, action)──▸ …

What an action does to the entries, to the loaded flag, to the count of loads and to the decorations
is said once, by `step_logs`, `step_loaded`, `step_loadCount` and `decorationStep_eq`; no other proof
opens an operation, but for what it does to the tree (`step_tree`).
-/

namespace ConsoleLens

/-- **One thing that happens to a console.** -/
inductive ConsoleAction where
  | start
  | stop
  | update
  | load
  | willSave
  | ingest (event : ConsoleEvent)
  | log (entry : LogEntry)
  | activate (document : Option FrontDocument)
  | documentChanged (path : DocumentPath) (dirty : Bool)
  | query (parent : Option String)
  | resume (w : Waiting)

namespace ConsoleAction

/-- Whether everything is forgotten. -/
def forgets : ConsoleAction → Bool
  | .stop | .update => true
  | _ => false

/-- **The entry that an action records**: one whose source is not excluded and, if it comes from an
event, that can be shown.  Where the entry of an event fails, none is recorded. -/
def recorded? (e : Surroundings) : ConsoleAction → Option LogEntry
  | .log entry =>
    if e.settings.excludes entry.originalPosition.source then none else some entry
  | .ingest event =>
    (LogEntry.ofEvent? event e.registry).toOption.join.filter fun entry =>
      entry.isShowable && !e.settings.excludes entry.originalPosition.source
  | _ => none

/-- What an action does to the document in front. -/
def refront : ConsoleAction → Decorator → Decorator
  | .activate document, d => d.bringToFront document
  | .documentChanged path dirty, d => d.markDirty path dirty
  | _, d => d

end ConsoleAction

/-- What the editor is told of decorations. -/
def decorationChanges (notices : List Notice) : List DecorationChange :=
  notices.filterMap fun
    | .treeChanged => none
    | .update u => some u

@[simp] theorem decorationChanges_map (us : List DecorationChange) :
    decorationChanges (us.map .update) = us := by
  rw [decorationChanges, List.filterMap_map]
  exact List.filterMap_some

@[simp] theorem decorationChanges_append (ns ms : List Notice) :
    decorationChanges (ns ++ ms) = decorationChanges ns ++ decorationChanges ms :=
  List.filterMap_append

/-- A change of the tree tells nothing of decorations. -/
theorem decorationChanges_treeChanged (p : Prop) [Decidable p] :
    decorationChanges (if p then [.treeChanged] else []) = [] := by
  split <;> rfl

namespace Console

/-! ## Actions -/

/-- **What an action does**, in the surroundings that it meets.  Nothing is changed before an
ingestion fails. -/
def step (c : Console) (e : Surroundings) : ConsoleAction → Reaction
  | .start => (c.start, [])
  | .stop => c.stop
  | .update => c.update e.settings
  | .load => c.load e.registry e.settings
  | .willSave => (c.willSave, [])
  | .ingest event => (c.ingest? e.registry e.settings event).toOption.join.getD (c, [])
  | .log entry => (c.log? e.registry e.settings entry).getD (c, [])
  | .activate document => c.activate e.registry e.settings document
  | .documentChanged path dirty => c.documentChanged e.registry e.settings path dirty
  | .query parent => ({ c with tree := (c.tree.query e.registry e.settings parent).2 }, [])
  | .resume w => ({ c with tree := ((c.tree.answer? e w).map (·.2)).getD c.tree }, [])

/-- **The console after actions**, one after the other, with all that the editor was notified of. -/
def run (c : Console) (actions : List (Surroundings × ConsoleAction)) : Reaction :=
  actions.foldl (fun r (e, a) => ((r.1.step e a).1, r.2 ++ (r.1.step e a).2)) (c, [])

@[simp] theorem run_nil (c : Console) : c.run [] = (c, []) := rfl

theorem run_concat (c : Console) (actions : List (Surroundings × ConsoleAction))
    (e : Surroundings) (a : ConsoleAction) :
    c.run (actions ++ [(e, a)]) =
      (((c.run actions).1.step e a).1, (c.run actions).2 ++ ((c.run actions).1.step e a).2) := by
  rw [run, run, List.foldl_append]
  rfl

/-- **The console that actions lead to**, from a fresh one of a workspace. -/
def reached (workspace : DocumentPath) (actions : List (Surroundings × ConsoleAction)) : Console :=
  ((ofWorkspace workspace).run actions).1

theorem reached_concat (workspace : DocumentPath) (actions : List (Surroundings × ConsoleAction))
    (e : Surroundings) (a : ConsoleAction) :
    reached workspace (actions ++ [(e, a)]) = ((reached workspace actions).step e a).1 := by
  rw [reached, run_concat]
  rfl

/-- **What holds of a fresh console and is kept by every action holds of every console that is
reached.** -/
theorem reached_induction {P : Console → Prop} (workspace : DocumentPath)
    (start : P (ofWorkspace workspace)) (step : ∀ c e a, P c → P (Console.step c e a).1)
    (actions : List (Surroundings × ConsoleAction)) : P (reached workspace actions) := by
  induction actions using List.reverseRecOn with
  | nil => exact start
  | append_singleton actions x ih =>
    rw [reached_concat]
    exact step _ x.1 x.2 ih

/-! ## Recording -/

/-- What becomes of a console that records an entry. -/
def record (c : Console) (e : Surroundings) (entry : LogEntry) : Reaction :=
  let c := { c with logs := c.logs ++ [entry] }
  let (c, updates) :=
    if c.loaded || !e.settings.groupByPath then c.decorate e.registry e.settings [entry]
    else (c, [])
  let changed := if c.tree.showsNew then [Notice.treeChanged] else []
  ({ c with tree := c.tree.add [entry] }, changed ++ updates)

theorem log?_eq (c : Console) (e : Surroundings) (entry : LogEntry) :
    c.log? e.registry e.settings entry =
      if e.settings.excludes entry.originalPosition.source then none
      else some (c.record e entry) := rfl

/-- An entry is logged by being recorded. -/
theorem step_log (c : Console) (e : Surroundings) (entry : LogEntry) :
    c.step e (.log entry) =
      ((ConsoleAction.log entry).recorded? e).elim (c, []) (c.record e) := by
  rw [step, log?_eq, ConsoleAction.recorded?]
  split <;> rfl

/-- An event is ingested by recording its entry, unless that fails. -/
theorem ingest?_eq (c : Console) (e : Surroundings) (event : ConsoleEvent) :
    c.ingest? e.registry e.settings event =
      (LogEntry.ofEvent? event e.registry).map fun _ =>
        ((ConsoleAction.ingest event).recorded? e).map (c.record e) := by
  rw [ingest?, ConsoleAction.recorded?]
  cases LogEntry.ofEvent? event e.registry with
  | error => rfl
  | ok made? =>
    cases made? with
    | none => rfl
    | some entry =>
      change Except.ok (if entry.isShowable then c.log? e.registry e.settings entry else none) =
        Except.ok (((some entry).filter _).map (c.record e))
      rw [Option.filter_some, log?_eq]
      cases entry.isShowable with
      | false => rfl
      | true => cases e.settings.excludes entry.originalPosition.source <;> rfl

theorem step_ingest (c : Console) (e : Surroundings) (event : ConsoleEvent) :
    c.step e (.ingest event) =
      ((ConsoleAction.ingest event).recorded? e).elim (c, []) (c.record e) := by
  rw [step, ingest?_eq]
  cases hentry : LogEntry.ofEvent? event e.registry with
  | error =>
    rw [ConsoleAction.recorded?, hentry]
    rfl
  | ok made? =>
    change (((ConsoleAction.ingest event).recorded? e).map (c.record e)).getD (c, []) = _
    cases (ConsoleAction.ingest event).recorded? e <;> rfl

theorem record_logs (c : Console) (e : Surroundings) (entry : LogEntry) :
    (c.record e entry).1.logs = c.logs ++ [entry] := by
  simp only [record]
  split <;> rfl

theorem record_loaded (c : Console) (e : Surroundings) (entry : LogEntry) :
    (c.record e entry).1.loaded = c.loaded := by
  simp only [record]
  split <;> rfl

theorem record_loadCount (c : Console) (e : Surroundings) (entry : LogEntry) :
    (c.record e entry).1.loadCount = c.loadCount := by
  simp only [record]
  split <;> rfl

/-- What recording leaves as it is stays as it is when nothing is recorded, too. -/
theorem step_eq_of_record {α : Type} (f : Console → α) {c : Console} {e : Surroundings}
    {a : ConsoleAction} (h : c.step e a = (a.recorded? e).elim (c, []) (c.record e))
    (hrecord : ∀ entry, f (c.record e entry).1 = f c) : f (c.step e a).1 = f c := by
  rw [h]
  cases a.recorded? e with
  | none => rfl
  | some entry => exact hrecord entry

/-- The editor is told what becomes of the decorations. -/
theorem decorate_decorator (c : Console) (registry : Registry) (settings : Settings)
    (entries : List LogEntry) :
    ((c.decorate registry settings entries).1.decorator,
        decorationChanges (c.decorate registry settings entries).2) =
      c.decorator.decorate registry settings entries := by
  rw [decorate, decorationChanges_map]

/-- An entry is decorated as it is recorded, once the page has loaded or if nothing waits for it. -/
theorem record_decorator (c : Console) (e : Surroundings) (entry : LogEntry) :
    ((c.record e entry).1.decorator, decorationChanges (c.record e entry).2) =
      if c.loaded || !e.settings.groupByPath then
        c.decorator.decorate e.registry e.settings [entry]
      else (c.decorator, []) := by
  simp only [record]
  split
  · rw [decorationChanges_append, decorationChanges_treeChanged, List.nil_append]
    exact decorate_decorator _ e.registry e.settings [entry]
  · rw [decorationChanges_append, decorationChanges_treeChanged]
    rfl

/-! ## What an action changes -/

/-- The entries that an action decorates the document in front with, if it decorates it. -/
def decorated? (c : Console) (e : Surroundings) : ConsoleAction → Option (List LogEntry)
  | .load => if c.loadCount + 1 = e.settings.loadsNeeded then some c.logs else none
  | .activate _ => some c.logs
  | .documentChanged .. => if c.loaded then some c.logs else none
  | a => (a.recorded? e).bind fun entry =>
    if c.loaded || !e.settings.groupByPath then some [entry] else none

/-- **The entries of a navigation**: an action records one at most, or all are forgotten. -/
theorem step_logs (c : Console) (e : Surroundings) (a : ConsoleAction) :
    (c.step e a).1.logs = if a.forgets then [] else c.logs ++ (a.recorded? e).toList := by
  have hrecord (h : c.step e a = (a.recorded? e).elim (c, []) (c.record e)) :
      (c.step e a).1.logs = c.logs ++ (a.recorded? e).toList := by
    rw [h]
    cases a.recorded? e with
    | none => exact (List.append_nil _).symm
    | some entry => exact record_logs c e entry
  cases a with
  | log entry => exact hrecord (step_log c e entry)
  | ingest event => exact hrecord (step_ingest c e event)
  | load =>
    simp only [step, load]
    split <;> exact (List.append_nil _).symm
  | documentChanged path dirty =>
    simp only [step, documentChanged]
    split <;> exact (List.append_nil _).symm
  | stop => rfl
  | update => rfl
  | _ => exact (List.append_nil _).symm

/-- **The loaded flag**: the last load that is needed sets it, and a save takes it away. -/
theorem step_loaded (c : Console) (e : Surroundings) (a : ConsoleAction) :
    (c.step e a).1.loaded =
      match a with
      | .stop | .update | .willSave => false
      | .load => c.loaded || decide (c.loadCount + 1 = e.settings.loadsNeeded)
      | _ => c.loaded := by
  cases a with
  | log entry => exact step_eq_of_record (·.loaded) (step_log c e entry) (record_loaded c e)
  | ingest event => exact step_eq_of_record (·.loaded) (step_ingest c e event) (record_loaded c e)
  | load =>
    simp only [step, load]
    split
    · next h => simp [h]
    · next h =>
      simp only [ne_eq, Decidable.not_not] at h
      simp [h, decorate]
  | documentChanged path dirty =>
    simp only [step, documentChanged]
    split <;> rfl
  | _ => rfl

/-- **The count of loads**: a load is counted, and a navigation starts the count again. -/
theorem step_loadCount (c : Console) (e : Surroundings) (a : ConsoleAction) :
    (c.step e a).1.loadCount =
      match a with
      | .update => 0
      | .load => c.loadCount + 1
      | _ => c.loadCount := by
  cases a with
  | log entry => exact step_eq_of_record (·.loadCount) (step_log c e entry) (record_loadCount c e)
  | ingest event =>
    exact step_eq_of_record (·.loadCount) (step_ingest c e event) (record_loadCount c e)
  | load =>
    simp only [step, load]
    split <;> rfl
  | documentChanged path dirty =>
    simp only [step, documentChanged]
    split <;> rfl
  | _ => rfl

/-- The decorator after an action, and what the editor is told of decorations. -/
def decorationStep (c : Console) (e : Surroundings) (a : ConsoleAction) :
    Decorator × List DecorationChange :=
  ((c.step e a).1.decorator, decorationChanges (c.step e a).2)

/-- **The decorations**: an action forgets them, or it changes the document in front and then
decorates it or not. -/
theorem decorationStep_eq (c : Console) (e : Surroundings) (a : ConsoleAction) :
    c.decorationStep e a =
      if a.forgets then (c.decorator.reset, [.clear none])
      else
        match c.decorated? e a with
        | none => (a.refront c.decorator, [])
        | some entries => (a.refront c.decorator).decorate e.registry e.settings entries := by
  have hrecord (h : c.step e a = (a.recorded? e).elim (c, []) (c.record e)) :
      c.decorationStep e a =
        match (a.recorded? e).bind fun entry =>
          if c.loaded || !e.settings.groupByPath then some [entry] else none with
        | none => (c.decorator, [])
        | some entries => c.decorator.decorate e.registry e.settings entries := by
    rw [decorationStep, h]
    cases a.recorded? e with
    | none => rfl
    | some entry =>
      rw [Option.elim_some, record_decorator, Option.bind_some]
      split <;> rfl
  unfold decorationStep at hrecord ⊢
  cases a with
  | log entry => exact hrecord (step_log c e entry)
  | ingest event => exact hrecord (step_ingest c e event)
  | load =>
    simp only [step, load, decorated?]
    by_cases h : c.loadCount + 1 = e.settings.loadsNeeded
    · simp only [h, ne_eq, not_true_eq_false, if_true, if_false]
      exact decorate_decorator _ e.registry e.settings c.logs
    · simp only [h, ne_eq, not_false_eq_true, if_true, if_false]
      rfl
  | activate document => exact decorate_decorator _ e.registry e.settings c.logs
  | documentChanged path dirty =>
    simp only [step, documentChanged, decorated?]
    cases c.loaded with
    | false => rfl
    | true => exact decorate_decorator _ e.registry e.settings c.logs
  | _ => rfl

theorem step_decorator_of_forgets (c : Console) (e : Surroundings) {a : ConsoleAction}
    (h : a.forgets = true) : (c.step e a).1.decorator = c.decorator.reset := by
  change (c.decorationStep e a).1 = _
  rw [decorationStep_eq, if_pos h]

theorem step_decorator_of_none {c : Console} {e : Surroundings} {a : ConsoleAction}
    (hforgets : a.forgets = false) (h : c.decorated? e a = none) :
    (c.step e a).1.decorator = a.refront c.decorator := by
  change (c.decorationStep e a).1 = _
  rw [decorationStep_eq, hforgets, h]
  rfl

/-- What forgets decorates nothing. -/
theorem forgets_of_decorated {c : Console} {e : Surroundings} {a : ConsoleAction}
    {entries : List LogEntry} (h : c.decorated? e a = some entries) : a.forgets = false := by
  cases a with
  | stop => cases h
  | update => cases h
  | _ => rfl

theorem step_decorator_of_some {c : Console} {e : Surroundings} {a : ConsoleAction}
    {entries : List LogEntry} (h : c.decorated? e a = some entries) :
    (c.step e a).1.decorator =
      ((a.refront c.decorator).decorate e.registry e.settings entries).1 := by
  change (c.decorationStep e a).1 = _
  rw [decorationStep_eq, forgets_of_decorated h, h]
  rfl

/-- An action that neither records nor forgets leaves the entries as they are. -/
theorem step_logs_of_none (c : Console) {e : Surroundings} {a : ConsoleAction}
    (hforgets : a.forgets = false) (hrecorded : a.recorded? e = none) :
    (c.step e a).1.logs = c.logs := by
  rw [step_logs, hforgets, hrecorded]
  exact List.append_nil _

/-- An entry that is recorded is decorated alone, if at all. -/
theorem recorded_of_decorated {p : Prop} [Decidable p] {recorded? : Option LogEntry}
    {entries : List LogEntry}
    (h : (recorded?.bind fun entry => if p then some [entry] else none) = some entries) :
    recorded?.toList = entries := by
  obtain ⟨entry, rfl, hif⟩ := Option.bind_eq_some_iff.mp h
  exact Option.some.inj (Option.ite_none_right_eq_some.mp hif).2

/-- An entry that is recorded on a loaded page is decorated. -/
theorem none_of_not_decorated {c : Console} {b : Bool} {recorded? : Option LogEntry}
    (h : (recorded?.bind fun entry => if c.loaded || b then some [entry] else none) = none)
    (hloaded : c.loaded) : recorded? = none := by
  cases recorded? with
  | none => rfl
  | some entry =>
    rw [Option.bind_some, hloaded, Bool.true_or, if_pos rfl] at h
    cases h

/-- **What is decorated**: all entries, or the one that is recorded, and then the document in front
and the loaded flag stay as they are. -/
theorem decorated?_eq_some {c : Console} {e : Surroundings} {a : ConsoleAction}
    {entries : List LogEntry} (h : c.decorated? e a = some entries) :
    entries = (c.step e a).1.logs ∨
      (c.step e a).1.logs = c.logs ++ entries ∧ (c.step e a).1.loaded = c.loaded ∧
        a.refront c.decorator = c.decorator := by
  cases a with
  | log entry =>
    exact .inr ⟨recorded_of_decorated h ▸ step_logs c e (.log entry), step_loaded c e _, rfl⟩
  | ingest event =>
    exact .inr ⟨recorded_of_decorated h ▸ step_logs c e (.ingest event), step_loaded c e _, rfl⟩
  | load =>
    obtain ⟨-, hentries⟩ := Option.ite_none_right_eq_some.mp h
    exact .inl ((Option.some.inj hentries).symm.trans (step_logs_of_none c rfl rfl).symm)
  | activate document =>
    exact .inl ((Option.some.inj h).symm.trans (step_logs_of_none c rfl rfl).symm)
  | documentChanged path dirty =>
    obtain ⟨-, hentries⟩ := Option.ite_none_right_eq_some.mp h
    exact .inl ((Option.some.inj hentries).symm.trans (step_logs_of_none c rfl rfl).symm)
  | _ => cases h

/-- **What is not decorated** on a page that is loaded afterwards: it was loaded before, and the
action has changed neither the entries nor the document in front. -/
theorem decorated?_eq_none {c : Console} {e : Surroundings} {a : ConsoleAction}
    (h : c.decorated? e a = none) (hloaded : (c.step e a).1.loaded) :
    c.loaded ∧ (c.step e a).1.logs = c.logs ∧ a.refront c.decorator = c.decorator := by
  rw [step_loaded] at hloaded
  cases a with
  | log entry =>
    exact ⟨hloaded, step_logs_of_none c rfl (none_of_not_decorated h hloaded), rfl⟩
  | ingest event =>
    exact ⟨hloaded, step_logs_of_none c rfl (none_of_not_decorated h hloaded), rfl⟩
  | load =>
    have hcount : c.loadCount + 1 ≠ e.settings.loadsNeeded := fun heq => by
      rw [decorated?, if_pos heq] at h
      cases h
    rw [decide_eq_false hcount, Bool.or_false] at hloaded
    exact ⟨hloaded, step_logs_of_none c rfl rfl, rfl⟩
  | activate document => cases h
  | documentChanged path dirty =>
    rw [decorated?, if_pos hloaded] at h
    cases h
  | start => exact ⟨hloaded, step_logs_of_none c rfl rfl, rfl⟩
  | query parent => exact ⟨hloaded, step_logs_of_none c rfl rfl, rfl⟩
  | resume w => exact ⟨hloaded, step_logs_of_none c rfl rfl, rfl⟩
  | stop => cases hloaded
  | update => cases hloaded
  | willSave => cases hloaded

/-! ## The entries of a navigation -/

/-- **The entries recorded since everything was last forgotten**, in the order of the actions. -/
def recordedSince (actions : List (Surroundings × ConsoleAction)) : List LogEntry :=
  (actions.rtakeWhile fun x => !x.2.forgets).filterMap fun x => x.2.recorded? x.1

theorem recordedSince_concat (actions : List (Surroundings × ConsoleAction)) (e : Surroundings)
    (a : ConsoleAction) :
    recordedSince (actions ++ [(e, a)]) =
      if a.forgets then [] else recordedSince actions ++ (a.recorded? e).toList := by
  rw [recordedSince, List.rtakeWhile_concat]
  cases a.forgets with
  | true => rfl
  | false =>
    rw [Bool.not_false, if_pos rfl, List.filterMap_append, recordedSince]
    cases h : a.recorded? e <;> simp [h]

/-- **The console has the entries recorded since everything was last forgotten.** -/
theorem logs_reached (workspace : DocumentPath) (actions : List (Surroundings × ConsoleAction)) :
    (reached workspace actions).logs = recordedSince actions := by
  induction actions using List.reverseRecOn with
  | nil => rfl
  | append_singleton actions x ih => rw [reached_concat, step_logs, recordedSince_concat, ih]

end Console

end ConsoleLens
