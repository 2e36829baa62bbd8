import ConsoleLens.Proofs.Console.Run
import ConsoleLens.Proofs.Editor.Screen

/-!
# Proofs/Console/Decoration — decorations over every run of a console

What one action does to the decorations is followed through a whole run, to three facts:

* `editor_shows_held` — an editor that does as it is told shows what is held, and nothing is held
  twice.
* `held_of_loaded` — once the page has loaded, a clean document in front has **exactly the
  decorations of the entries recorded since everything was last forgotten**, however late it came to
  the front, was cleaned or was loaded.
* `clearWhenDirty_iff` — a dirty document in front has no decorations on a loaded page.  On one that
  is still loading it keeps those that it had when it was edited, since an edit is then only noted.
-/

namespace ConsoleLens

/-- What an action does to the document in front changes nothing that is held. -/
@[simp] theorem ConsoleAction.held_refront (a : ConsoleAction) (d : Decorator) (p : DocumentPath) :
    (a.refront d).held p = d.held p := by
  cases a with
  | activate document => exact d.held_bringToFront document p
  | documentChanged path dirty => exact d.held_markDirty path dirty p
  | _ => rfl

@[simp] theorem ConsoleAction.workspace_refront (a : ConsoleAction) (d : Decorator) :
    (a.refront d).workspace = d.workspace := by
  cases a <;> rfl

namespace Console

/-! ## The workspace -/

/-- No action moves the workspace. -/
theorem workspace_step (c : Console) (e : Surroundings) (a : ConsoleAction) :
    (c.step e a).1.decorator.workspace = c.decorator.workspace := by
  cases hforgets : a.forgets with
  | true =>
    rw [step_decorator_of_forgets c e hforgets]
    rfl
  | false =>
    cases hdecorated : c.decorated? e a with
    | none => rw [step_decorator_of_none hforgets hdecorated, ConsoleAction.workspace_refront]
    | some entries =>
      rw [step_decorator_of_some hdecorated, (Decorator.decorate_frame _ _ _ _).2,
        ConsoleAction.workspace_refront]

theorem workspace_reached (workspace : DocumentPath)
    (actions : List (Surroundings × ConsoleAction)) :
    (reached workspace actions).decorator.workspace = workspace :=
  reached_induction (P := fun c => c.decorator.workspace = workspace) workspace rfl
    (fun c e a h => (workspace_step c e a).trans h) actions

/-! ## What the editor shows -/

/-- **The editor is told of everything that an action adds and drops.** -/
theorem shows_step {s : Screen} {c : Console} (h : s.Shows c.decorator) (e : Surroundings)
    (a : ConsoleAction) :
    ((decorationChanges (c.step e a).2).foldl Screen.apply s).Shows (c.step e a).1.decorator := by
  have hrefront : s.Shows (a.refront c.decorator) := fun p => by
    rw [ConsoleAction.held_refront]
    exact h p
  change ((c.decorationStep e a).2.foldl Screen.apply s).Shows (c.decorationStep e a).1
  rw [decorationStep_eq]
  split
  · exact Screen.shows_reset s c.decorator
  · cases c.decorated? e a with
    | none => exact hrefront
    | some entries => exact hrefront.decorate e.registry e.settings entries

theorem distinct_step {c : Console} (h : c.decorator.Distinct) (e : Surroundings)
    (a : ConsoleAction) : (c.step e a).1.decorator.Distinct := by
  have hrefront : (a.refront c.decorator).Distinct := fun p => by
    rw [ConsoleAction.held_refront]
    exact h p
  change (c.decorationStep e a).1.Distinct
  rw [decorationStep_eq]
  split
  · exact fun _ => List.nodup_nil
  · cases c.decorated? e a with
    | none => exact hrefront
    | some entries => exact hrefront.decorate e.registry e.settings entries

/-- The screen of an editor that was told of all changes so far shows what is held. -/
theorem shows_run (workspace : DocumentPath) (actions : List (Surroundings × ConsoleAction)) :
    (Screen.replay (decorationChanges ((ofWorkspace workspace).run actions).2)).Shows
      (reached workspace actions).decorator := by
  induction actions using List.reverseRecOn with
  | nil => exact Screen.shows_reset Screen.blank (ofWorkspace workspace).decorator
  | append_singleton actions x ih =>
    rw [reached_concat, run_concat, decorationChanges_append, Screen.replay, List.foldl_append]
    exact shows_step ih x.1 x.2

/-- **An editor that does as it is told shows what is held**, in every document and after every run,
whatever the maps and the settings are at each action; and nothing is held twice. -/
theorem editor_shows_held (workspace : DocumentPath)
    (actions : List (Surroundings × ConsoleAction)) (path : DocumentPath) :
    Screen.replay (decorationChanges ((ofWorkspace workspace).run actions).2) path =
        looks ((reached workspace actions).decorator.held path) ∧
      (((reached workspace actions).decorator.held path).map Decoration.look).Nodup := by
  have hdistinct : (reached workspace actions).decorator.Distinct :=
    reached_induction (P := fun c => c.decorator.Distinct) workspace (fun _ => List.nodup_nil)
      (fun _ e a h => distinct_step h e a) actions
  exact ⟨shows_run workspace actions path, hdistinct path⟩

/-! ## What is held on a loaded page -/

/-- **The decorations agree with the entries**: nothing is held but what the entries are decorated
with, and on a loaded page a clean document in front holds all of it. -/
structure Decorated (workspace : DocumentPath) (e : Surroundings) (c : Console) : Prop where
  workspace_eq : c.decorator.workspace = workspace
  sound : ∀ p, looks (c.decorator.held p) ⊆
    Decorator.looksOf workspace e.registry e.settings p c.logs
  complete : c.loaded → ∀ front, c.decorator.active = some front → front.dirty = false →
    Decorator.looksOf workspace e.registry e.settings front.path c.logs ⊆
      looks (c.decorator.held front.path)

theorem Decorated.fresh (workspace : DocumentPath) (e : Surroundings) :
    (ofWorkspace workspace).Decorated workspace e where
  workspace_eq := rfl
  sound _ := looks_nil ▸ Set.empty_subset _
  complete hloaded := nomatch hloaded

theorem forgotten_not_loaded (c : Console) (e : Surroundings) {a : ConsoleAction}
    (h : a.forgets = true) : (c.step e a).1.loaded = false := by
  rw [step_loaded]
  cases a with
  | stop => rfl
  | update => rfl
  | _ => cases h

/-- An action that does not forget keeps what the entries are decorated with. -/
theorem looksOf_subset_step (c : Console) (workspace path : DocumentPath) (e : Surroundings)
    {a : ConsoleAction} (h : a.forgets = false) :
    Decorator.looksOf workspace e.registry e.settings path c.logs ⊆
      Decorator.looksOf workspace e.registry e.settings path (c.step e a).1.logs := by
  rw [step_logs, h, if_neg Bool.false_ne_true, Decorator.looksOf_append]
  exact Set.subset_union_left

variable {workspace : DocumentPath} {e : Surroundings} {c : Console} {a : ConsoleAction}

theorem Decorated.forget (h : c.Decorated workspace e) (hforgets : a.forgets = true) :
    (c.step e a).1.Decorated workspace e := by
  have hdecorator := step_decorator_of_forgets c e hforgets
  refine ⟨(workspace_step c e a).trans h.workspace_eq, fun p => ?_, fun hloaded => ?_⟩
  · rw [hdecorator, Decorator.held_reset, looks_nil]
    exact Set.empty_subset _
  · rw [forgotten_not_loaded c e hforgets] at hloaded
    cases hloaded

/-- What is not decorated does not need to be. -/
theorem Decorated.pass (h : c.Decorated workspace e) (hforgets : a.forgets = false)
    (hnone : c.decorated? e a = none) : (c.step e a).1.Decorated workspace e := by
  have hdecorator := step_decorator_of_none hforgets hnone
  refine ⟨(workspace_step c e a).trans h.workspace_eq, fun p => ?_,
    fun hloaded front hactive hclean => ?_⟩
  · rw [hdecorator, ConsoleAction.held_refront]
    exact (h.sound p).trans (looksOf_subset_step c workspace p e hforgets)
  · obtain ⟨hbefore, hlogs, hfront⟩ := decorated?_eq_none hnone hloaded
    rw [hdecorator, hfront] at hactive ⊢
    rw [hlogs]
    exact h.complete hbefore front hactive hclean

/-- The entries that are decorated are the console's, and those that are not were before. -/
theorem Decorated.decorate (h : c.Decorated workspace e) {entries : List LogEntry}
    (hsome : c.decorated? e a = some entries) : (c.step e a).1.Decorated workspace e := by
  have hforgets := forgets_of_decorated hsome
  have hdecorator := step_decorator_of_some hsome
  have hframe := Decorator.decorate_frame e.registry e.settings entries (a.refront c.decorator)
  have hworkspace : (a.refront c.decorator).workspace = workspace := by
    rw [ConsoleAction.workspace_refront]
    exact h.workspace_eq
  have hmine (p : DocumentPath) :
      Decorator.looksOf workspace e.registry e.settings p entries ⊆
        Decorator.looksOf workspace e.registry e.settings p (c.step e a).1.logs := by
    obtain rfl | ⟨hlogs, -⟩ := decorated?_eq_some hsome
    · exact subset_rfl
    · rw [hlogs, Decorator.looksOf_append]
      exact Set.subset_union_right
  refine ⟨(workspace_step c e a).trans h.workspace_eq, fun p => ?_,
    fun hloaded front hactive hclean => ?_⟩
  · have hsubset := Decorator.looks_held_decorate_subset e.registry e.settings entries
      (a.refront c.decorator) p
    rw [ConsoleAction.held_refront, hworkspace] at hsubset
    rw [hdecorator]
    exact hsubset.trans (Set.union_subset
      ((h.sound p).trans (looksOf_subset_step c workspace p e hforgets)) (hmine p))
  · rw [hdecorator, hframe.1] at hactive
    rw [hdecorator, Decorator.looks_held_decorate e.registry e.settings entries hactive hclean,
      if_pos (DocumentPath.beq_iff.mpr rfl), ConsoleAction.held_refront, hworkspace]
    obtain rfl | ⟨hlogs, hbefore, hfront⟩ := decorated?_eq_some hsome
    · exact Set.subset_union_right
    · rw [hfront] at hactive
      rw [hlogs, Decorator.looksOf_append]
      exact Set.union_subset_union_left _
        (h.complete (hbefore ▸ hloaded) front hactive hclean)

/-- **Every action keeps the decorations in agreement with the entries.** -/
theorem Decorated.step (h : c.Decorated workspace e) (a : ConsoleAction) :
    (c.step e a).1.Decorated workspace e := by
  cases hforgets : a.forgets with
  | true => exact h.forget hforgets
  | false =>
    cases hdecorated : c.decorated? e a with
    | none => exact h.pass hforgets hdecorated
    | some entries => exact h.decorate hdecorated

theorem decorated_run (workspace : DocumentPath) (e : Surroundings)
    (actions : List ConsoleAction) :
    (reached workspace (actions.map (e, ·))).Decorated workspace e := by
  induction actions using List.reverseRecOn with
  | nil => exact .fresh workspace e
  | append_singleton actions a ih =>
    rw [List.map_append, List.map_singleton, reached_concat]
    exact ih.step a

/-- **On a loaded page a clean document in front is decorated with the entries of the navigation**,
with all that belong to it and nothing else, whatever came before. -/
theorem held_of_loaded (workspace : DocumentPath) (e : Surroundings)
    (actions : List ConsoleAction) (front : FrontDocument)
    (hloaded : (reached workspace (actions.map (e, ·))).loaded)
    (hactive : (reached workspace (actions.map (e, ·))).decorator.active = some front)
    (hclean : front.dirty = false) :
    looks ((reached workspace (actions.map (e, ·))).decorator.held front.path) =
      Decorator.looksOf workspace e.registry e.settings front.path
        (recordedSince (actions.map (e, ·))) := by
  have hdecorated := decorated_run workspace e actions
  rw [← logs_reached workspace]
  exact (hdecorated.sound front.path).antisymm (hdecorated.complete hloaded front hactive hclean)

/-- An entry logged in a source. -/
def logged (source : String) (line : Nat) : ConsoleAction :=
  .log { originalPosition := ⟨line, 1, source⟩ }

/-- `/work/a.ts` is logged to while the page is loading, while another document is in front, and
while it is dirty. -/
def scatteredLogs : List ConsoleAction :=
  [logged "/a.ts" 1, .load, .activate (some ⟨⟨"/work/b.ts"⟩, false⟩), logged "/a.ts" 2,
    logged "/b.ts" 9, .activate (some ⟨⟨"/work/a.ts"⟩, true⟩), logged "/a.ts" 3,
    .documentChanged ⟨"/work/a.ts"⟩ false]

/-- It is decorated with all of its entries once it is clean. -/
theorem held_of_loaded_scatteredLogs :
    let c := reached ⟨"/work"⟩ (scatteredLogs.map ({}, ·))
    c.loaded = true ∧ c.decorator.active = some ⟨⟨"/work/a.ts"⟩, false⟩ ∧
    (c.decorator.held ⟨"/work/a.ts"⟩).map (·.line) = [0, 1, 2] ∧
    looks (c.decorator.held ⟨"/work/a.ts"⟩) =
      Decorator.looksOf ⟨"/work"⟩ {} {} ⟨"/work/a.ts"⟩
        (recordedSince (scatteredLogs.map ({}, ·))) :=
  ⟨rfl, rfl, by decide,
    held_of_loaded ⟨"/work"⟩ {} scatteredLogs ⟨⟨"/work/a.ts"⟩, false⟩ rfl rfl rfl⟩

/-! ## Dirty documents -/

/-- **A dirty document in front has no decorations.** -/
def ClearWhenDirty (c : Console) : Prop :=
  ∀ front, c.decorator.active = some front → front.dirty = true → c.decorator.held front.path = []

/-- **An edit of a document leaves it clear**: the page has loaded, so that it is cleared, or the
document is not in front or has no decorations. -/
def SafeToEdit (c : Console) (path : DocumentPath) : Prop :=
  c.loaded ∨ ∀ front, c.decorator.active = some front → front.path == path →
    c.decorator.held front.path = []

/-- Whatever is decorated, a dirty document is cleared. -/
theorem clearWhenDirty_of_decorated {entries : List LogEntry}
    (hsome : c.decorated? e a = some entries) : (c.step e a).1.ClearWhenDirty := by
  have hdecorator := step_decorator_of_some hsome
  have hframe := Decorator.decorate_frame e.registry e.settings entries (a.refront c.decorator)
  intro front hactive hdirty
  rw [hdecorator, hframe.1] at hactive
  rw [hdecorator, Decorator.held_decorate_of_dirty e.registry e.settings entries hactive hdirty]
  exact if_pos (DocumentPath.beq_iff.mpr rfl)

/-- What leaves the document in front as it is keeps it clear. -/
theorem ClearWhenDirty.keep (h : c.ClearWhenDirty) (e : Surroundings)
    (hfront : a.refront c.decorator = c.decorator) : (c.step e a).1.ClearWhenDirty := by
  cases hforgets : a.forgets with
  | true =>
    intro front _ _
    rw [step_decorator_of_forgets c e hforgets, Decorator.held_reset]
  | false =>
    cases hdecorated : c.decorated? e a with
    | some entries => exact clearWhenDirty_of_decorated hdecorated
    | none =>
      intro front hactive hdirty
      rw [step_decorator_of_none hforgets hdecorated, hfront] at hactive ⊢
      exact h front hactive hdirty

/-- **On a loaded page a dirty document in front has been cleared.** -/
theorem clearWhenDirty_step_of_loaded (h : c.loaded → c.ClearWhenDirty) (e : Surroundings)
    (a : ConsoleAction) (hloaded : (c.step e a).1.loaded) : (c.step e a).1.ClearWhenDirty := by
  cases hdecorated : c.decorated? e a with
  | some entries => exact clearWhenDirty_of_decorated hdecorated
  | none =>
    obtain ⟨hbefore, -, hfront⟩ := decorated?_eq_none hdecorated hloaded
    exact (h hbefore).keep e hfront

/-- While the page is loading an edit is only noted. -/
theorem step_documentChanged_of_not_loaded (path : DocumentPath) (dirty : Bool)
    (hloaded : c.loaded = false) :
    (c.step e (.documentChanged path dirty)).1.decorator = c.decorator.markDirty path dirty := by
  refine step_decorator_of_none rfl ?_
  rw [decorated?, if_neg (hloaded ▸ Bool.false_ne_true)]

/-- **A document that becomes dirty is clear exactly when it was safe to edit.** -/
theorem clearWhenDirty_documentChanged_iff (h : c.ClearWhenDirty) (e : Surroundings)
    (path : DocumentPath) (dirty : Bool) :
    (c.step e (.documentChanged path dirty)).1.ClearWhenDirty ↔
      (dirty = true → c.SafeToEdit path) := by
  cases hloaded : c.loaded with
  | true =>
    have hsome : c.decorated? e (.documentChanged path dirty) = some c.logs := if_pos hloaded
    exact iff_of_true (clearWhenDirty_of_decorated hsome) fun _ => .inl hloaded
  | false =>
    have hdecorator := step_documentChanged_of_not_loaded (e := e) path dirty hloaded
    constructor
    · intro hclear hdirty
      refine .inr fun front hactive hpath => ?_
      have hmarked : (c.decorator.markDirty path dirty).active = some { front with dirty } := by
        rw [Decorator.markDirty, hactive, Option.map_some, if_pos hpath]
      rw [ClearWhenDirty, hdecorator] at hclear
      exact hclear { front with dirty } hmarked hdirty
    · intro hsafe front hactive hdirty
      rw [hdecorator] at hactive ⊢
      obtain ⟨before, hbefore, hafter⟩ := Option.map_eq_some_iff.mp hactive
      split at hafter
      · next hpath =>
        subst hafter
        exact (hsafe hdirty).resolve_left (hloaded ▸ Bool.false_ne_true) before hbefore hpath
      · subst hafter
        exact h before hbefore hdirty

/-- **Nothing but an edit leaves its decorations to a dirty document.** -/
theorem clearWhenDirty_step_iff (h : c.ClearWhenDirty) (e : Surroundings) (a : ConsoleAction) :
    (c.step e a).1.ClearWhenDirty ↔
      ∀ path, a = .documentChanged path true → c.SafeToEdit path := by
  cases a with
  | documentChanged path dirty =>
    rw [clearWhenDirty_documentChanged_iff h]
    constructor
    · rintro hsafe _ ⟨⟩
      exact hsafe rfl
    · rintro hsafe rfl
      exact hsafe path rfl
  | activate document => exact iff_of_true (clearWhenDirty_of_decorated rfl) nofun
  | _ => exact iff_of_true (h.keep e rfl) nofun

/-- **On a loaded page a dirty document in front has no decorations, and it never has any exactly
when each edit was safe**: made on a loaded page, or of a document that is not in front or has no
decorations. -/
theorem clearWhenDirty_iff (workspace : DocumentPath)
    (actions : List (Surroundings × ConsoleAction)) :
    ((reached workspace actions).loaded → (reached workspace actions).ClearWhenDirty) ∧
      ((∀ before, before <+: actions → (reached workspace before).ClearWhenDirty) ↔
        ∀ before e path, before ++ [(e, .documentChanged path true)] <+: actions →
          (reached workspace before).SafeToEdit path) := by
  refine ⟨?_, fun hclear before e path hprefix => ?_, fun hsafe before => ?_⟩
  · exact reached_induction (P := fun c => c.loaded → c.ClearWhenDirty) workspace nofun
      (fun c e a h => clearWhenDirty_step_of_loaded h e a) actions
  · have hbefore := hclear before ((List.prefix_append before _).trans hprefix)
    have hafter := hclear _ hprefix
    rw [reached_concat] at hafter
    exact (clearWhenDirty_step_iff hbefore e _).mp hafter path rfl
  · induction before using List.reverseRecOn with
    | nil => exact fun _ => nofun
    | append_singleton before x ih =>
      intro hprefix
      have hbefore := ih ((List.prefix_append before _).trans hprefix)
      rw [reached_concat]
      refine (clearWhenDirty_step_iff hbefore x.1 x.2).mpr fun path hpath => ?_
      exact hsafe before x.1 path (hpath ▸ hprefix)

/-- `/work/a.ts` is logged to and edited, and edited again after a save. -/
def carefulEdits : List (Surroundings × ConsoleAction) :=
  [.load, .activate (some ⟨⟨"/work/a.ts"⟩, false⟩), logged "/a.ts" 1,
    .documentChanged ⟨"/work/a.ts"⟩ true, .willSave, .documentChanged ⟨"/work/a.ts"⟩ true].map
    ({}, ·)

/-- The first edit clears it, and so the second one is safe. -/
theorem clearWhenDirty_carefulEdits :
    ((reached ⟨"/work"⟩ (carefulEdits.take 3)).decorator.held ⟨"/work/a.ts"⟩).length = 1 ∧
    ∀ before, before <+: carefulEdits → (reached ⟨"/work"⟩ before).ClearWhenDirty := by
  refine ⟨rfl, (clearWhenDirty_iff ⟨"/work"⟩ carefulEdits).2.mpr fun before e path hprefix => ?_⟩
  have hlength : before.length < 6 := by
    have hle := hprefix.length_le
    rwa [List.length_append] at hle
  have hbefore : before = carefulEdits.take before.length :=
    List.prefix_iff_eq_take.mp ((List.prefix_append before _).trans hprefix)
  have hedit : carefulEdits[before.length]? = some (e, .documentChanged path true) := by
    obtain ⟨rest, hrest⟩ := hprefix
    rw [← hrest, List.append_assoc, List.getElem?_append_right (Nat.le_refl _), Nat.sub_self]
    rfl
  generalize before.length = n at hlength hbefore hedit
  subst hbefore
  match n, hlength, hedit with
  | 3, _, _ => exact .inl rfl
  | 5, _, _ => exact .inr fun front hactive _ => Option.some.inj hactive ▸ rfl

/-- `/work/a.ts` is logged to and saved, and edited before the page has loaded again. -/
def hastyEdit : List (Surroundings × ConsoleAction) :=
  [.load, .activate (some ⟨⟨"/work/a.ts"⟩, false⟩), logged "/a.ts" 1, .willSave,
    .documentChanged ⟨"/work/a.ts"⟩ true].map ({}, ·)

/-- It is dirty and still has its decoration. -/
theorem hastyEdit_not_clearWhenDirty : ¬ (reached ⟨"/work"⟩ hastyEdit).ClearWhenDirty := by
  intro hclear
  have hheld := hclear ⟨⟨"/work/a.ts"⟩, true⟩ rfl rfl
  have hlength :
      ((reached ⟨"/work"⟩ hastyEdit).decorator.held ⟨"/work/a.ts"⟩).length = 1 := rfl
  rw [hheld] at hlength
  cases hlength

end Console

end ConsoleLens
