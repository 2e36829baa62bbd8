import ConsoleLens.Editor.Decorator
import Mathlib.Data.List.Nodup
import Mathlib.Data.Set.Insert

/-!
# Proofs/Editor/Screen — what an editor shows that does as it is told

Decorations are the same when they look the same at the same place, so what a document shows is a
**set of looks**.  An editor has one for each document and changes it as it is told to; the
decorator holds lists of decorations instead.

    decorator  ──decorate · reset──▸  decorator
        │ looks                           │ looks
      screen   ──the changes told──▸    screen

`Screen.Shows` says that the columns agree, and `Shows.decorate` and `Shows.reset` that **the
decorator tells of everything it adds and drops**; what it does about the document in front changes
nothing that is held.  No look is held twice (`Decorator.Distinct`).
-/

namespace ConsoleLens

/-! ## Looks -/

/-- What a decoration is compared by: its document, its line, its text and its colour. -/
abbrev Decoration.Look := (Bool × List (List Char)) × Nat × String × String

/-- The look of a decoration. -/
def Decoration.look (d : Decoration) : Look := (d.path.components, d.line, d.text, d.color)

theorem DocumentPath.beq_iff {p q : DocumentPath} : p == q ↔ p.components = q.components := by
  change (p.components == q.components) ↔ _
  exact beq_iff_eq

/-- **Decorations are the same when they look the same.** -/
theorem Decoration.beq_iff {a b : Decoration} : a == b ↔ a.look = b.look := by
  change (a.path == b.path && a.line == b.line && a.text == b.text && a.color == b.color) ↔ _
  simp only [Bool.and_eq_true, DocumentPath.beq_iff, beq_iff_eq, look, Prod.mk.injEq, and_assoc]

/-- The looks of decorations. -/
def looks (ds : List Decoration) : Set Decoration.Look := {l | l ∈ ds.map Decoration.look}

theorem mem_looks {l : Decoration.Look} {ds : List Decoration} :
    l ∈ looks ds ↔ l ∈ ds.map Decoration.look := Iff.rfl

@[simp] theorem looks_nil : looks [] = ∅ :=
  Set.eq_empty_of_forall_notMem fun _ => List.not_mem_nil

theorem looks_cons (d : Decoration) (ds : List Decoration) :
    looks (d :: ds) = insert d.look (looks ds) := by
  ext l
  rw [mem_looks, List.map_cons, List.mem_cons, Set.mem_insert_iff, mem_looks]

theorem looks_concat (ds : List Decoration) (d : Decoration) :
    looks (ds ++ [d]) = insert d.look (looks ds) := by
  ext l
  rw [mem_looks, List.map_append, List.mem_append, Set.mem_insert_iff, mem_looks, or_comm]
  exact or_congr_left List.mem_singleton

/-! ## What is held -/

namespace Decorator

theorem held_hold (d : Decorator) (q : DocumentPath) (ds : List Decoration) (p : DocumentPath) :
    (d.hold q ds).held p = if p == q then ds else d.held p := by
  simp only [held, hold, Table.get?_insert, DocumentPath.beq_iff]
  split <;> rfl

/-- Two spellings of a path hold the same. -/
theorem held_congr (d : Decorator) {p q : DocumentPath} (h : p == q) : d.held p = d.held q := by
  rw [held, DocumentPath.beq_iff.mp h, held]

/-- A decoration counts as held when its look is. -/
theorem contains_iff (ds : List Decoration) (x : Decoration) :
    ds.contains x ↔ x.look ∈ ds.map Decoration.look := by
  rw [List.contains_iff_exists_mem_beq, List.mem_map]
  exact exists_congr fun d => and_congr_right fun _ => Decoration.beq_iff.trans eq_comm

theorem keep_eq (d : Decorator) (x : Decoration) :
    d.keep x = if x.look ∈ (d.held x.path).map Decoration.look then d
      else d.hold x.path (d.held x.path ++ [x]) := by
  simp only [keep, contains_iff]

/-- **Keeping a decoration adds its look to its document.** -/
theorem looks_held_keep (d : Decorator) (x : Decoration) (p : DocumentPath) :
    looks ((d.keep x).held p) =
      if p == x.path then insert x.look (looks (d.held p)) else looks (d.held p) := by
  rw [keep_eq]
  split
  · next hheld =>
    split
    · next hp => rw [Set.insert_eq_of_mem (mem_looks.mpr (d.held_congr hp ▸ hheld))]
    · rfl
  · rw [held_hold]
    split
    · next hp => rw [looks_concat, d.held_congr hp]
    · rfl

/-- **Every list is free of duplicates.** -/
def Distinct (d : Decorator) : Prop := ∀ p, ((d.held p).map Decoration.look).Nodup

theorem Distinct.hold_nil {d : Decorator} (h : d.Distinct) (q : DocumentPath) :
    (d.hold q []).Distinct := by
  intro p
  rw [held_hold]
  split
  · exact List.nodup_nil
  · exact h p

theorem Distinct.keep {d : Decorator} (h : d.Distinct) (x : Decoration) : (d.keep x).Distinct := by
  intro p
  rw [keep_eq]
  split
  · exact h p
  · next hheld =>
    rw [held_hold]
    split
    · rw [List.map_append, List.map_singleton]
      exact (List.concat_eq_append ▸ List.Nodup.concat hheld (h x.path))
    · exact h p

/-- What is done about the document in front changes nothing that is held. -/
@[simp] theorem held_bringToFront (d : Decorator) (document : Option FrontDocument)
    (p : DocumentPath) : (d.bringToFront document).held p = d.held p := rfl

@[simp] theorem held_markDirty (d : Decorator) (q : DocumentPath) (dirty : Bool)
    (p : DocumentPath) : (d.markDirty q dirty).held p = d.held p := rfl

@[simp] theorem held_reset (d : Decorator) (p : DocumentPath) : d.reset.held p = [] := rfl

/-! ## Decorating -/

variable {d : Decorator} {a : FrontDocument} (registry : Registry) (settings : Settings)
  (entries : List LogEntry)

/-- Without a document in front there is nothing to decorate. -/
theorem decorate_of_none (h : d.active = none) :
    d.decorate registry settings entries = (d, []) := by
  simp only [decorate, h]

/-- A dirty document is cleared. -/
theorem decorate_of_dirty (h : d.active = some a) (ha : a.dirty = true) :
    d.decorate registry settings entries = (d.hold a.path [], [.clear (some a.path)]) := by
  simp only [decorate, h, ha, if_true]

/-- A clean document gets the decorations of the entries that belong to it. -/
theorem decorate_of_clean (h : d.active = some a) (ha : a.dirty = false) :
    d.decorate registry settings entries =
      ((d.matching registry settings a.path entries).foldl keep d,
        (d.matching registry settings a.path entries).map .add) := by
  simp only [decorate, h, ha, Bool.false_eq_true, if_false]

theorem Distinct.foldl_keep (h : d.Distinct) (xs : List Decoration) :
    (xs.foldl Decorator.keep d).Distinct := by
  induction xs generalizing d with
  | nil => exact h
  | cons x rest ih => exact ih (h.keep x)

/-- No look is held twice, whatever is decorated. -/
theorem Distinct.decorate (h : d.Distinct) : (d.decorate registry settings entries).1.Distinct := by
  cases hactive : d.active with
  | none =>
    rw [decorate_of_none registry settings entries hactive]
    exact h
  | some a =>
    cases hdirty : a.dirty with
    | true =>
      rw [decorate_of_dirty registry settings entries hactive hdirty]
      exact h.hold_nil a.path
    | false =>
      rw [decorate_of_clean registry settings entries hactive hdirty]
      exact h.foldl_keep _

/-! ## What is decorated -/

/-- Keeping decorations of one document adds their looks to it. -/
theorem looks_held_foldl_keep {q : DocumentPath} : ∀ {xs : List Decoration} (d : Decorator),
    (∀ x ∈ xs, x.path = q) → ∀ p, looks ((xs.foldl Decorator.keep d).held p) =
      if p == q then looks (d.held p) ∪ looks xs else looks (d.held p)
  | [], _, _, _ => by simp
  | x :: rest, d, hxs, p => by
      obtain rfl := hxs x List.mem_cons_self
      rw [List.foldl_cons,
        looks_held_foldl_keep (d.keep x) fun y hy => hxs y (List.mem_cons_of_mem x hy),
        looks_held_keep, looks_cons]
      split
      · rw [Set.insert_union, Set.union_insert]
      · rfl

/-- **The looks of the entries that belong to a document**: those whose source, below the workspace,
is its path, each on its line with its title. -/
def looksOf (workspace : DocumentPath) (registry : Registry) (settings : Settings)
    (path : DocumentPath) (entries : List LogEntry) : Set Decoration.Look :=
  {l | ∃ entry ∈ entries,
    workspace.join (Text.trimSlashes entry.originalPosition.source.toList) == path ∧
      l = (path.components, entry.originalPosition.line - 1, entry.title registry,
        settings.shownColor)}

theorem mem_looksOf {workspace : DocumentPath} {path : DocumentPath} {l : Decoration.Look} :
    l ∈ looksOf workspace registry settings path entries ↔ ∃ entry ∈ entries,
      workspace.join (Text.trimSlashes entry.originalPosition.source.toList) == path ∧
        l = (path.components, entry.originalPosition.line - 1, entry.title registry,
          settings.shownColor) := Iff.rfl

theorem looks_matching (d : Decorator) (path : DocumentPath) :
    looks (d.matching registry settings path entries) =
      looksOf d.workspace registry settings path entries := by
  ext l
  rw [mem_looks, matching, List.map_map, List.mem_map, mem_looksOf]
  refine exists_congr fun entry => ?_
  rw [List.mem_filter, and_assoc]
  exact and_congr_right fun _ => and_congr_right fun _ => eq_comm

/-- Two spellings of a path have the same entries. -/
theorem looksOf_congr (workspace : DocumentPath) {p q : DocumentPath} (h : p == q) :
    looksOf workspace registry settings p entries =
      looksOf workspace registry settings q entries := by
  ext l
  simp only [mem_looksOf, DocumentPath.beq_iff, DocumentPath.beq_iff.mp h]

theorem looksOf_append (workspace path : DocumentPath) (more : List LogEntry) :
    looksOf workspace registry settings path (entries ++ more) =
      looksOf workspace registry settings path entries ∪
        looksOf workspace registry settings path more := by
  ext l
  simp only [Set.mem_union, mem_looksOf, List.mem_append, or_and_right, exists_or]

/-- **A clean document gets the looks of its entries**, and no other document changes. -/
theorem looks_held_decorate (h : d.active = some a) (ha : a.dirty = false) (p : DocumentPath) :
    looks ((d.decorate registry settings entries).1.held p) =
      if p == a.path then
        looks (d.held p) ∪ looksOf d.workspace registry settings a.path entries
      else looks (d.held p) := by
  have hpath : ∀ x ∈ d.matching registry settings a.path entries, x.path = a.path := by
    intro x hx
    obtain ⟨entry, -, rfl⟩ := List.mem_map.mp hx
    rfl
  rw [decorate_of_clean registry settings entries h ha, looks_held_foldl_keep d hpath,
    looks_matching]

/-- A dirty document holds nothing once it is decorated. -/
theorem held_decorate_of_dirty (h : d.active = some a) (ha : a.dirty = true) (p : DocumentPath) :
    (d.decorate registry settings entries).1.held p = if p == a.path then [] else d.held p := by
  rw [decorate_of_dirty registry settings entries h ha, held_hold]

/-- Nothing is decorated but with the entries given. -/
theorem looks_held_decorate_subset (d : Decorator) (p : DocumentPath) :
    looks ((d.decorate registry settings entries).1.held p) ⊆
      looks (d.held p) ∪ looksOf d.workspace registry settings p entries := by
  cases hactive : d.active with
  | none =>
    rw [decorate_of_none registry settings entries hactive]
    exact Set.subset_union_left
  | some a =>
    cases hdirty : a.dirty with
    | true =>
      rw [held_decorate_of_dirty registry settings entries hactive hdirty]
      split
      · rw [looks_nil]
        exact Set.empty_subset _
      · exact Set.subset_union_left
    | false =>
      rw [looks_held_decorate registry settings entries hactive hdirty]
      split
      · next hp => rw [looksOf_congr registry settings entries d.workspace hp]
      · exact Set.subset_union_left

/-- **What the editor is told to show**: the decorations of the entries that belong to the clean
document in front. -/
theorem add_mem_decorate_iff (d : Decorator) (x : Decoration) :
    .add x ∈ (d.decorate registry settings entries).2 ↔
      ∃ a, d.active = some a ∧ a.dirty = false ∧
        x ∈ d.matching registry settings a.path entries := by
  cases hactive : d.active with
  | none =>
    rw [decorate_of_none registry settings entries hactive]
    simp
  | some a =>
    cases hdirty : a.dirty with
    | true =>
      rw [decorate_of_dirty registry settings entries hactive hdirty]
      simp [hdirty]
    | false =>
      rw [decorate_of_clean registry settings entries hactive hdirty]
      simp [hdirty]

/-- What is held may change, the document in front and the workspace do not. -/
theorem keep_frame (d : Decorator) (x : Decoration) :
    (d.keep x).active = d.active ∧ (d.keep x).workspace = d.workspace := by
  rw [keep_eq]
  split <;> exact ⟨rfl, rfl⟩

theorem foldl_keep_frame (d : Decorator) (xs : List Decoration) :
    (xs.foldl Decorator.keep d).active = d.active ∧
      (xs.foldl Decorator.keep d).workspace = d.workspace := by
  induction xs generalizing d with
  | nil => exact ⟨rfl, rfl⟩
  | cons x rest ih =>
    rw [List.foldl_cons, (ih (d.keep x)).1, (ih (d.keep x)).2]
    exact d.keep_frame x

theorem decorate_frame (d : Decorator) :
    (d.decorate registry settings entries).1.active = d.active ∧
      (d.decorate registry settings entries).1.workspace = d.workspace := by
  unfold Decorator.decorate
  split
  · exact ⟨rfl, rfl⟩
  · split
    · exact ⟨rfl, rfl⟩
    · exact d.foldl_keep_frame _

end Decorator

/-! ## Screens -/

/-- **What an editor shows**: a set of looks for every document. -/
abbrev Screen := DocumentPath → Set Decoration.Look

namespace Screen

/-- An editor that shows nothing. -/
def blank : Screen := fun _ => ∅

/-- What becomes of a screen as the editor is told. -/
def apply (s : Screen) : DecorationChange → Screen
  | .add d => fun p => if p == d.path then insert d.look (s p) else s p
  | .clear (some q) => fun p => if p == q then ∅ else s p
  | .clear none => blank

/-- **The screen of an editor that was told of changes**, one after the other. -/
def replay (changes : List DecorationChange) : Screen := changes.foldl apply blank

/-- A screen shows what a decorator holds. -/
def Shows (s : Screen) (d : Decorator) : Prop := ∀ p, s p = looks (d.held p)

variable {s : Screen} {d : Decorator}

theorem Shows.keep (h : s.Shows d) (x : Decoration) : (s.apply (.add x)).Shows (d.keep x) := by
  intro p
  rw [Decorator.looks_held_keep, ← h p]
  rfl

theorem Shows.foldl_keep (h : s.Shows d) (xs : List Decoration) :
    ((xs.map DecorationChange.add).foldl apply s).Shows (xs.foldl Decorator.keep d) := by
  induction xs generalizing s d with
  | nil => exact h
  | cons x rest ih => exact ih (h.keep x)

theorem Shows.hold_nil (h : s.Shows d) (q : DocumentPath) :
    (s.apply (.clear (some q))).Shows (d.hold q []) := by
  intro p
  change (if p == q then ∅ else s p) = _
  rw [Decorator.held_hold]
  split
  · exact looks_nil.symm
  · exact h p

/-- **The editor is told of everything that decorating adds and drops.** -/
theorem Shows.decorate (h : s.Shows d) (registry : Registry) (settings : Settings)
    (entries : List LogEntry) :
    ((d.decorate registry settings entries).2.foldl apply s).Shows
      (d.decorate registry settings entries).1 := by
  cases hactive : d.active with
  | none =>
    rw [Decorator.decorate_of_none registry settings entries hactive]
    exact h
  | some a =>
    cases hdirty : a.dirty with
    | true =>
      rw [Decorator.decorate_of_dirty registry settings entries hactive hdirty]
      exact h.hold_nil a.path
    | false =>
      rw [Decorator.decorate_of_clean registry settings entries hactive hdirty]
      exact h.foldl_keep _

/-- An editor that is told to drop everything shows nothing, as nothing is held. -/
theorem shows_reset (s : Screen) (d : Decorator) : (s.apply (.clear none)).Shows d.reset :=
  fun _ => looks_nil.symm

end Screen

end ConsoleLens
