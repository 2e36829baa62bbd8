import ConsoleLens.Proofs.Console.Agreement
import ConsoleLens.Proofs.Console.Decoration

/-!
# Proofs/Console/Gate — what waits until every route has loaded

A navigation starts a count of loads.  The load that is **counted at exactly the number of routes**,
as the settings have it then, completes the page; a stop opens the tree alone, and a save takes the
page away until it is completed again.

    update ──load──▸ 1 ──load──▸ ⋯ ──load──▸ n = routes : the tree shows, the page has loaded

* `phase_eq_loaded_iff` — with settings that stay and group entries, the tree shows the entries
  exactly when it was stopped or enough routes have loaded, and **withholds all of them until then**.
* `loaded_load_iff` — with settings that change, a load completes the page exactly when one load met
  the number of routes.  **A count that is past the number never meets it again**, so enough loads
  are enough only as long as no route is removed and nothing is saved or stopped (`Undisturbed`).
* `waitsForLoad_iff` — decorations wait as well, but for those of a clean document that comes to the
  front: **it is decorated at once**, while an entry and an edit wait for the page.
-/

namespace ConsoleLens

namespace ConsoleAction

/-- Whether a navigation starts. -/
@[simp] def navigates : ConsoleAction → Bool
  | .update => true
  | _ => false

/-- Whether a route has loaded. -/
@[simp] def loads : ConsoleAction → Bool
  | .load => true
  | _ => false

/-- Whether the console stops. -/
@[simp] def stops : ConsoleAction → Bool
  | .stop => true
  | _ => false

/-- Whether the page is no longer loaded. -/
@[simp] def unloads : ConsoleAction → Bool
  | .stop | .update | .willSave => true
  | _ => false

theorem loads_iff {a : ConsoleAction} : a.loads ↔ a = .load := by
  cases a <;> simp

end ConsoleAction

theorem Settings.loadsNeeded_pos (s : Settings) : 0 < s.loadsNeeded :=
  Nat.lt_of_lt_of_le Nat.zero_lt_one (Nat.le_max_right _ _)

namespace Console

/-! ## Since the last navigation -/

/-- **The actions since the last navigation started**, all of them if none has. -/
def sinceNavigation (actions : List (Surroundings × ConsoleAction)) :
    List (Surroundings × ConsoleAction) :=
  actions.rtakeWhile fun x => !x.2.navigates

/-- The loads among them. -/
def loadsSince (actions : List (Surroundings × ConsoleAction)) :
    List (Surroundings × ConsoleAction) :=
  (sinceNavigation actions).filter fun x => x.2.loads

/-- Whether the console was stopped among them. -/
def stoppedSince (actions : List (Surroundings × ConsoleAction)) : Bool :=
  (sinceNavigation actions).any fun x => x.2.stops

theorem sinceNavigation_concat (actions : List (Surroundings × ConsoleAction))
    (x : Surroundings × ConsoleAction) :
    sinceNavigation (actions ++ [x]) =
      if x.2.navigates then [] else sinceNavigation actions ++ [x] := by
  rw [sinceNavigation, List.rtakeWhile_concat]
  cases x.2.navigates <;> rfl

theorem loadsSince_concat (actions : List (Surroundings × ConsoleAction))
    (x : Surroundings × ConsoleAction) :
    loadsSince (actions ++ [x]) =
      if x.2.navigates then [] else loadsSince actions ++ if x.2.loads then [x] else [] := by
  rw [loadsSince, sinceNavigation_concat]
  split
  · rfl
  · rw [List.filter_append, List.filter_singleton, Bool.cond_eq_ite]
    rfl

theorem loadsSince_load (actions : List (Surroundings × ConsoleAction)) (e : Surroundings) :
    loadsSince (actions ++ [(e, .load)]) = loadsSince actions ++ [(e, .load)] :=
  loadsSince_concat actions (e, .load)

theorem loadsSince_pass (actions : List (Surroundings × ConsoleAction)) (e : Surroundings)
    {a : ConsoleAction} (hnavigates : a.navigates = false) (hloads : a.loads = false) :
    loadsSince (actions ++ [(e, a)]) = loadsSince actions := by
  rw [loadsSince_concat, hnavigates, hloads]
  exact List.append_nil _

theorem stoppedSince_concat (actions : List (Surroundings × ConsoleAction))
    (x : Surroundings × ConsoleAction) :
    stoppedSince (actions ++ [x]) = (!x.2.navigates && (stoppedSince actions || x.2.stops)) := by
  rw [stoppedSince, sinceNavigation_concat]
  cases x.2.navigates with
  | true => rfl
  | false => simp [stoppedSince]

/-- **The console counts the loads since the last navigation started.** -/
theorem loadCount_reached (workspace : DocumentPath)
    (actions : List (Surroundings × ConsoleAction)) :
    (reached workspace actions).loadCount = (loadsSince actions).length := by
  induction actions using List.reverseRecOn with
  | nil => rfl
  | append_singleton actions x ih =>
    obtain ⟨e, a⟩ := x
    rw [reached_concat, step_loadCount, ih]
    cases a with
    | update =>
      rw [loadsSince_concat]
      rfl
    | load => rw [loadsSince_load, List.length_append, List.length_singleton]
    | _ => rw [loadsSince_pass actions e rfl rfl]

/-! ## The tree -/

/-- **The tree was let to show its entries** since the last navigation started: by a stop, or by as
many loads as there are routes. -/
def Opened (s : Settings) (actions : List (Surroundings × ConsoleAction)) : Prop :=
  stoppedSince actions ∨ s.loadsNeeded ≤ (loadsSince actions).length

theorem not_opened_nil (s : Settings) : ¬ Opened s [] := by
  rintro (hstop | hloads)
  · cases hstop
  · exact Nat.not_le_of_lt s.loadsNeeded_pos hloads

/-- What opens the tree keeps it open until the next navigation: a stop, or the load that is counted
at the number needed. -/
theorem opened_concat (s : Settings) (actions : List (Surroundings × ConsoleAction))
    (e : Surroundings) (a : ConsoleAction) :
    Opened s (actions ++ [(e, a)]) ↔ a.navigates = false ∧
      (Opened s actions ∨ a.stops ∨ a.loads ∧ (loadsSince actions).length + 1 = s.loadsNeeded) := by
  rw [Opened, loadsSince_concat, stoppedSince_concat]
  cases a with
  | update => exact iff_of_false (not_opened_nil s) nofun
  | stop => exact iff_of_true (.inl (Bool.or_true _)) ⟨rfl, .inr (.inl rfl)⟩
  | load =>
    have hreach : s.loadsNeeded ≤ (loadsSince actions).length + 1 ↔
        s.loadsNeeded ≤ (loadsSince actions).length ∨
          (loadsSince actions).length + 1 = s.loadsNeeded := by omega
    simp [Opened, hreach, or_assoc]
  | _ => simp [Opened]

theorem phase_reached_iff (workspace : DocumentPath) {s : Settings}
    (hgroup : s.groupByPath = true) (actions : List (Surroundings × ConsoleAction))
    (hfixed : ∀ x ∈ actions, x.1.settings = s) :
    (reached workspace actions).tree.phase = .loaded ↔ Opened s actions := by
  induction actions using List.reverseRecOn with
  | nil => exact iff_of_false nofun (not_opened_nil s)
  | append_singleton actions x ih =>
    obtain ⟨e, a⟩ := x
    obtain rfl : e.settings = s := hfixed _ List.mem_concat_self
    have hbefore := ih fun x hx => hfixed x (List.mem_append_left _ hx)
    rw [reached_concat, step_phase, opened_concat, loadCount_reached, ← hbefore]
    cases a with
    | update =>
      rw [if_pos hgroup]
      exact iff_of_false nofun nofun
    | stop => exact iff_of_true rfl ⟨rfl, .inr (.inl rfl)⟩
    | load =>
      by_cases hcount : (loadsSince actions).length + 1 = e.settings.loadsNeeded
      · exact iff_of_true (if_pos hcount) ⟨rfl, .inr (.inr ⟨rfl, hcount⟩)⟩
      · simp [hcount]
    | _ => simp

/-- The entries recorded since the last navigation started. -/
def recordedSinceNavigation (actions : List (Surroundings × ConsoleAction)) : List LogEntry :=
  (sinceNavigation actions).filterMap fun x => x.2.recorded? x.1

/-- Without a stop nothing but a navigation has forgotten entries. -/
theorem rtakeWhile_of_not_stopped {actions : List (Surroundings × ConsoleAction)}
    (h : ¬ stoppedSince actions) :
    actions.rtakeWhile (fun x => !x.2.forgets) = sinceNavigation actions := by
  induction actions using List.reverseRecOn with
  | nil => rfl
  | append_singleton actions x ih =>
    obtain ⟨e, a⟩ := x
    rw [stoppedSince_concat] at h
    rw [List.rtakeWhile_concat, sinceNavigation_concat]
    cases a with
    | update => rfl
    | stop => simp at h
    | _ =>
      rw [ih (by simpa using h)]
      rfl

theorem recordedSince_of_not_stopped {actions : List (Surroundings × ConsoleAction)}
    (h : ¬ stoppedSince actions) : recordedSince actions = recordedSinceNavigation actions := by
  rw [recordedSince, recordedSinceNavigation, rtakeWhile_of_not_stopped h]

/-- **The tree shows the entries exactly when enough routes have loaded** since the navigation
started, or the console was stopped; until then it withholds all that were recorded.  The settings
stay, and entries are grouped. -/
theorem phase_eq_loaded_iff (workspace : DocumentPath) (s : Settings)
    (hgroup : s.groupByPath = true) (actions : List (Surroundings × ConsoleAction))
    (hfixed : ∀ x ∈ actions, x.1.settings = s) :
    ((reached workspace actions).tree.phase = .loaded ↔
        stoppedSince actions ∨ s.loadsNeeded ≤ (loadsSince actions).length) ∧
      (¬ (stoppedSince actions ∨ s.loadsNeeded ≤ (loadsSince actions).length) →
        (reached workspace actions).tree.phase = .pending ∧
        (reached workspace actions).tree.Withholds (recordedSinceNavigation actions)) := by
  have hiff := phase_reached_iff workspace hgroup actions hfixed
  refine ⟨hiff, fun hclosed => ?_⟩
  have hpending : (reached workspace actions).tree.phase = .pending := by
    cases hphase : (reached workspace actions).tree.phase with
    | pending => rfl
    | loaded => exact absurd (hiff.mp hphase) hclosed
  rw [← recordedSince_of_not_stopped fun hstop => hclosed (.inl hstop),
    ← logs_reached workspace, ← known_reached]
  exact ⟨hpending, (apart_reached workspace actions).withholds hpending⟩

/-- A page with two routes. -/
def twoRoutes : Settings := { routes := [{ route := "/" }, { route := "/admin" }] }

/-- A page with a third one. -/
def threeRoutes : Settings := { routes := twoRoutes.routes ++ [{ route := "/help" }] }

/-- Of two routes one has loaded, after an entry was logged. -/
def lateRoute : List (Surroundings × ConsoleAction) :=
  [.update, .log { originalPosition := ⟨1, 1, "/a.ts"⟩ }, .load].map ({ settings := twoRoutes }, ·)

/-- The entry is withheld until the other one has loaded too. -/
theorem phase_eq_loaded_iff_lateRoute :
    (reached ⟨"/work"⟩ lateRoute).tree.Withholds [{ originalPosition := ⟨1, 1, "/a.ts"⟩ }] ∧
    (reached ⟨"/work"⟩ (lateRoute ++ [({ settings := twoRoutes }, .load)])).tree.phase =
      .loaded := by
  have hbefore := phase_eq_loaded_iff ⟨"/work"⟩ twoRoutes rfl lateRoute (by simp [lateRoute])
  have hafter := phase_eq_loaded_iff ⟨"/work"⟩ twoRoutes rfl
    (lateRoute ++ [({ settings := twoRoutes }, .load)]) (by simp [lateRoute])
  exact ⟨(hbefore.2 (by decide)).2, hafter.1.mpr (.inr (by decide))⟩

/-! ## The page -/

/-- **The page was completed**: a load was counted at exactly the number needed then, and nothing
has unloaded the page since. -/
def Completed (actions : List (Surroundings × ConsoleAction)) : Prop :=
  ∃ before e after, actions = before ++ (e, .load) :: after ∧
    (loadsSince before).length + 1 = e.settings.loadsNeeded ∧ ∀ x ∈ after, x.2.unloads = false

theorem completed_concat (actions : List (Surroundings × ConsoleAction)) (e : Surroundings)
    (a : ConsoleAction) :
    Completed (actions ++ [(e, a)]) ↔ a.unloads = false ∧
      (Completed actions ∨ a.loads ∧ (loadsSince actions).length + 1 = e.settings.loadsNeeded) := by
  constructor
  · rintro ⟨before, e', after, heq, hcount, hafter⟩
    rcases after.eq_nil_or_concat' with rfl | ⟨after, y, rfl⟩
    · obtain ⟨rfl, hlast⟩ := List.append_inj' heq rfl
      cases hlast
      exact ⟨rfl, .inr ⟨rfl, hcount⟩⟩
    · rw [← List.cons_append, ← List.append_assoc] at heq
      obtain ⟨rfl, hlast⟩ := List.append_inj' heq rfl
      cases hlast
      exact ⟨hafter _ List.mem_concat_self,
        .inl ⟨before, e', after, rfl, hcount, fun x hx => hafter x (List.mem_append_left _ hx)⟩⟩
  · rintro ⟨hkeep, ⟨before, e', after, rfl, hcount, hafter⟩ | ⟨hload, hcount⟩⟩
    · refine ⟨before, e', after ++ [(e, a)], by simp, hcount, fun x hx => ?_⟩
      rcases List.mem_append.mp hx with hx | hx
      · exact hafter x hx
      · rw [List.mem_singleton.mp hx]
        exact hkeep
    · obtain rfl := ConsoleAction.loads_iff.mp hload
      exact ⟨actions, e, [], rfl, hcount, List.forall_mem_nil _⟩

/-- **The page is loaded exactly when it was completed.** -/
theorem loaded_reached_iff (workspace : DocumentPath)
    (actions : List (Surroundings × ConsoleAction)) :
    (reached workspace actions).loaded ↔ Completed actions := by
  induction actions using List.reverseRecOn with
  | nil =>
    refine iff_of_false nofun ?_
    rintro ⟨before, e, after, heq, -⟩
    cases before <;> cases heq
  | append_singleton actions x ih =>
    obtain ⟨e, a⟩ := x
    rw [reached_concat, step_loaded, completed_concat, ← ih, loadCount_reached]
    cases a <;> simp

/-- **A navigation goes on undisturbed**: since it started nothing was saved or stopped, and no load
needs fewer routes than the one before it. -/
structure Undisturbed (actions : List (Surroundings × ConsoleAction)) : Prop where
  kept : ∀ x ∈ sinceNavigation actions, x.2.unloads = false
  growing : (loadsSince actions).Pairwise fun x y =>
    x.1.settings.loadsNeeded ≤ y.1.settings.loadsNeeded

/-- What goes on undisturbed did so before its last action. -/
theorem Undisturbed.of_concat {actions : List (Surroundings × ConsoleAction)}
    {x : Surroundings × ConsoleAction} (h : Undisturbed (actions ++ [x]))
    (hx : x.2.navigates = false) : Undisturbed actions ∧ x.2.unloads = false := by
  obtain ⟨hkept, hgrowing⟩ := h
  rw [sinceNavigation_concat, hx, if_neg Bool.false_ne_true] at hkept
  rw [loadsSince_concat, hx, if_neg Bool.false_ne_true] at hgrowing
  exact ⟨⟨fun y hy => hkept y (List.mem_append_left _ hy), (List.pairwise_append.mp hgrowing).1⟩,
    hkept x List.mem_concat_self⟩

/-- **A count does not pass by a number that only grows**: as long as the page is not completed,
fewer loads are counted than were needed at any of them. -/
theorem Undisturbed.lt_of_not_completed {actions : List (Surroundings × ConsoleAction)}
    (h : Undisturbed actions) (hnot : ¬ Completed actions) {n : Nat} (hpos : 0 < n)
    (hn : ∀ x ∈ loadsSince actions, x.1.settings.loadsNeeded ≤ n) :
    (loadsSince actions).length < n := by
  induction actions using List.reverseRecOn generalizing n with
  | nil => exact hpos
  | append_singleton actions x ih =>
    obtain ⟨e, a⟩ := x
    rw [completed_concat, not_and, not_or] at hnot
    cases a with
    | update =>
      rw [loadsSince_concat]
      exact hpos
    | load =>
      obtain ⟨hbefore, hkept⟩ := h.of_concat rfl
      obtain ⟨hopen, hmissed⟩ := hnot hkept
      have hgrowing := h.growing
      rw [loadsSince_load] at hgrowing hn ⊢
      -- the count was below the number needed now, and it has not met it
      have hlt : (loadsSince actions).length < e.settings.loadsNeeded :=
        ih hbefore hopen e.settings.loadsNeeded_pos fun y hy =>
          (List.pairwise_append.mp hgrowing).2.2 y hy _ (List.mem_singleton_self _)
      have hle : e.settings.loadsNeeded ≤ n := hn _ List.mem_concat_self
      have hne : (loadsSince actions).length + 1 ≠ e.settings.loadsNeeded :=
        fun heq => hmissed ⟨rfl, heq⟩
      rw [List.length_append, List.length_singleton]
      omega
    | _ =>
      obtain ⟨hbefore, hkept⟩ := h.of_concat rfl
      rw [loadsSince_pass actions e rfl rfl] at hn ⊢
      exact ih hbefore (hnot hkept).1 hpos hn

/-- As many loads as there are routes complete a navigation that goes on undisturbed. -/
theorem Undisturbed.completed {actions : List (Surroundings × ConsoleAction)} {e : Surroundings}
    (h : Undisturbed (actions ++ [(e, .load)]))
    (henough : e.settings.loadsNeeded ≤ (loadsSince (actions ++ [(e, .load)])).length) :
    Completed (actions ++ [(e, .load)]) := by
  by_contra hnot
  refine Nat.not_lt_of_le henough
    (h.lt_of_not_completed hnot e.settings.loadsNeeded_pos fun x hx => ?_)
  have hgrowing := h.growing
  rw [loadsSince_load] at hgrowing hx
  rcases List.mem_append.mp hx with hx | hx
  · exact (List.pairwise_append.mp hgrowing).2.2 x hx _ (List.mem_singleton_self _)
  · rw [List.mem_singleton.mp hx]

/-- **A load completes the page exactly when it, or one before it, met the number of routes**: it
was counted at exactly the number needed then, and nothing has unloaded the page since.  In a
navigation that goes on undisturbed, as many loads as there are routes are enough. -/
theorem loaded_load_iff (workspace : DocumentPath)
    (actions : List (Surroundings × ConsoleAction)) (e : Surroundings) :
    ((reached workspace (actions ++ [(e, .load)])).loaded ∧
        (reached workspace (actions ++ [(e, .load)])).tree.phase = .loaded ↔
      Completed (actions ++ [(e, .load)])) ∧
    (Undisturbed (actions ++ [(e, .load)]) →
      e.settings.loadsNeeded ≤ (loadsSince (actions ++ [(e, .load)])).length →
      (reached workspace (actions ++ [(e, .load)])).loaded ∧
        (reached workspace (actions ++ [(e, .load)])).tree.phase = .loaded) := by
  have hiff : (reached workspace (actions ++ [(e, .load)])).loaded ∧
      (reached workspace (actions ++ [(e, .load)])).tree.phase = .loaded ↔
        Completed (actions ++ [(e, .load)]) := by
    rw [← loaded_reached_iff workspace]
    exact and_iff_left_of_imp (phase_of_loaded workspace _)
  exact ⟨hiff, fun hundisturbed henough => hiff.mpr (hundisturbed.completed henough)⟩

/-- A third route is added after the first one has loaded, and another one loads. -/
def addedRoute : List (Surroundings × ConsoleAction) :=
  lateRoute ++ [({ settings := threeRoutes }, .load)]

/-- The third load completes the page. -/
theorem loaded_load_iff_addedRoute :
    (reached ⟨"/work"⟩ addedRoute).loaded = false ∧
    (reached ⟨"/work"⟩ (addedRoute ++ [({ settings := threeRoutes }, .load)])).loaded ∧
    (reached ⟨"/work"⟩ (addedRoute ++ [({ settings := threeRoutes }, .load)])).tree.phase =
      .loaded :=
  ⟨rfl, (loaded_load_iff ⟨"/work"⟩ addedRoute { settings := threeRoutes }).2
    ⟨by decide, by decide⟩ (by decide)⟩

/-- One of two routes is removed after the other one has loaded, and that one loads again. -/
def removedRoute : List (Surroundings × ConsoleAction) :=
  lateRoute ++ [({ settings := {} }, .load)]

/-- Two loads have been counted where one is needed, and the page is not loaded. -/
theorem removedRoute_not_loaded :
    ¬ (({} : Settings).loadsNeeded ≤ (loadsSince removedRoute).length →
      (reached ⟨"/work"⟩ removedRoute).loaded ∧
        (reached ⟨"/work"⟩ removedRoute).tree.phase = .loaded) := by
  intro hcomplete
  obtain ⟨hloaded, -⟩ := hcomplete (by decide)
  cases hloaded

/-! ## The decorations -/

theorem add_mem_decorationChanges {d : Decoration} {ns : List Notice} :
    .add d ∈ decorationChanges ns ↔ .update (.add d) ∈ ns := by
  rw [decorationChanges, List.mem_filterMap]
  constructor
  · rintro ⟨n, hn, hd⟩
    cases n with
    | treeChanged => cases hd
    | update u =>
      cases hd
      exact hn
  · exact fun h => ⟨_, h, rfl⟩

/-- A decoration is shown when entries are decorated. -/
theorem update_add_mem_step_iff (c : Console) (e : Surroundings) (a : ConsoleAction)
    (d : Decoration) :
    .update (.add d) ∈ (c.step e a).2 ↔ ∃ entries, c.decorated? e a = some entries ∧
      .add d ∈ ((a.refront c.decorator).decorate e.registry e.settings entries).2 := by
  rw [← add_mem_decorationChanges]
  change _ ∈ (c.decorationStep e a).2 ↔ _
  rw [decorationStep_eq]
  cases hdecorated : c.decorated? e a with
  | none =>
    refine iff_of_false ?_ nofun
    split <;> simp
  | some entries =>
    rw [forgets_of_decorated hdecorated]
    simp

/-- **Nothing is decorated on a page that has not loaded but a document that comes to the front**,
if entries are grouped. -/
theorem activate_of_decorated {c : Console} {e : Surroundings} {a : ConsoleAction}
    {entries : List LogEntry} (h : c.decorated? e a = some entries)
    (hgroup : e.settings.groupByPath = true) (hloaded : (c.step e a).1.loaded = false) :
    ∃ document, a = .activate document := by
  rw [step_loaded] at hloaded
  have hrecord {added? : Option LogEntry} (hunloaded : c.loaded = false)
      (h : (added?.bind fun entry =>
        if c.loaded || !e.settings.groupByPath then some [entry] else none) = some entries) :
      False := by
    rw [hunloaded, hgroup] at h
    cases added? <;> cases h
  cases a with
  | activate document => exact ⟨document, rfl⟩
  | log entry => exact (hrecord hloaded h).elim
  | ingest event => exact (hrecord hloaded h).elim
  | load =>
    obtain ⟨hcount, -⟩ := Option.ite_none_right_eq_some.mp h
    rw [decide_eq_true hcount, Bool.or_true] at hloaded
    cases hloaded
  | documentChanged path dirty =>
    obtain ⟨hbefore, -⟩ := Option.ite_none_right_eq_some.mp h
    exact absurd (hbefore.symm.trans hloaded) Bool.noConfusion
  | _ => cases h

/-- A clean document that comes to the front is decorated, whether or not the page has loaded. -/
theorem update_add_mem_activate_iff (c : Console) (e : Surroundings)
    (document : Option FrontDocument) (d : Decoration) :
    .update (.add d) ∈ (c.step e (.activate document)).2 ↔
      ∃ front, document = some front ∧ front.dirty = false ∧
        d ∈ c.decorator.matching e.registry e.settings front.path c.logs := by
  rw [update_add_mem_step_iff]
  constructor
  · rintro ⟨_, ⟨⟩, hadd⟩
    exact (Decorator.add_mem_decorate_iff _ _ _ _ _).mp hadd
  · exact fun h => ⟨_, rfl, (Decorator.add_mem_decorate_iff _ _ _ _ _).mpr h⟩

/-- **An action waits for the load**: it shows no decoration when the page has not loaded after
it. -/
def WaitsForLoad (c : Console) (e : Surroundings) (a : ConsoleAction) : Prop :=
  (c.step e a).1.loaded = false → ∀ d, .update (.add d) ∉ (c.step e a).2

/-- **Decorations wait for the load, but for a clean document that comes to the front**: the entries
that belong to it are shown at once.  Entries are grouped. -/
theorem waitsForLoad_iff (workspace : DocumentPath)
    (actions : List (Surroundings × ConsoleAction)) (e : Surroundings) (a : ConsoleAction)
    (hgroup : e.settings.groupByPath = true) :
    (reached workspace actions).WaitsForLoad e a ↔
      ∀ front, a = .activate (some front) → front.dirty = false →
        (reached workspace actions).loaded ∨ ∀ entry ∈ recordedSince actions,
          ¬ workspace.join (Text.trimSlashes entry.originalPosition.source.toList) ==
            front.path := by
  have hworkspace := workspace_reached workspace actions
  rw [← logs_reached workspace]
  constructor
  · rintro hwaits front rfl hclean
    refine or_iff_not_imp_left.mpr fun hloaded entry hentry hbelongs => ?_
    have hmatching : Decorator.decorationOf e.registry e.settings front.path entry ∈
        (reached workspace actions).decorator.matching e.registry e.settings front.path
          (reached workspace actions).logs := by
      refine List.mem_map_of_mem (List.mem_filter.mpr ⟨hentry, ?_⟩)
      rw [Decorator.pathOf, hworkspace]
      exact hbelongs
    exact hwaits (eq_false_of_ne_true hloaded) _
      ((update_add_mem_activate_iff _ e _ _).mpr ⟨front, rfl, hclean, hmatching⟩)
  · intro hsafe hloaded d hd
    obtain ⟨entries, hdecorated, -⟩ := (update_add_mem_step_iff _ e a d).mp hd
    obtain ⟨document, rfl⟩ := activate_of_decorated hdecorated hgroup hloaded
    obtain ⟨front, rfl, hclean, hmatching⟩ := (update_add_mem_activate_iff _ e _ d).mp hd
    obtain ⟨entry, hentry, -⟩ := List.mem_map.mp hmatching
    obtain ⟨hlogged, hbelongs⟩ := List.mem_filter.mp hentry
    rw [Decorator.pathOf, hworkspace] at hbelongs
    rw [step_loaded] at hloaded
    rcases hsafe front rfl hclean with hbefore | hnone
    · exact absurd (hbefore.symm.trans hloaded) Bool.noConfusion
    · exact hnone entry hlogged hbelongs

/-- An entry is logged before the page has loaded. -/
def earlyLog : List (Surroundings × ConsoleAction) := [({ settings := {} }, logged "/a.ts" 1)]

/-- Another document may come to the front, and nothing is shown. -/
theorem waitsForLoad_iff_earlyLog :
    ({} : Settings).groupByPath = true ∧
    ((reached ⟨"/work"⟩ earlyLog).step { settings := {} }
      (.activate (some ⟨⟨"/work/b.ts"⟩, false⟩))).1.loaded = false ∧
    (reached ⟨"/work"⟩ earlyLog).WaitsForLoad { settings := {} }
      (.activate (some ⟨⟨"/work/b.ts"⟩, false⟩)) := by
  refine ⟨rfl, rfl, (waitsForLoad_iff ⟨"/work"⟩ earlyLog _ _ rfl).mpr ?_⟩
  rintro _ ⟨⟩ -
  exact .inr (by decide)

/-- Its own document comes to the front, and the entry is shown. -/
theorem earlyLog_not_waitsForLoad :
    ¬ (reached ⟨"/work"⟩ earlyLog).WaitsForLoad { settings := {} }
      (.activate (some ⟨⟨"/work/a.ts"⟩, false⟩)) :=
  fun hwaits => hwaits rfl _ List.mem_cons_self

end Console

end ConsoleLens
