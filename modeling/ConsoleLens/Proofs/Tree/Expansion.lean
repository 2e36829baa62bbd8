import ConsoleLens.Proofs.Tree.Browsing

/-!
# Proofs/Tree/Expansion — an expansion is answered in the tree it was made in, or not at all

The properties of a value arrive when they arrive.  Two facts decide what becomes of them:

* `generation_run` — **the generation counts the rebuilds**, so a fetch carries the generation of
  the tree exactly as long as no load, clear or reset has come in between;
* `contains_run` — without a rebuild, **what has been handed out stays known**, so the value is
  still there and the second guard never drops an answer that the first one lets through.

Put together, they decide for any number of queries and answers in any order.
-/

namespace ConsoleLens

namespace LogTree

/-- Adding entries changes neither the generation nor what has been handed out. -/
theorem add_eq (t : LogTree) (entries : List LogEntry) :
    t.add entries = { t with
      stored := (t.add entries).stored
      counters := (t.add entries).counters
      paths := (t.add entries).paths
      pending := (t.add entries).pending } := by
  unfold add
  split
  · rfl
  · rw [fileAll_eq]

@[simp] theorem add_generation (t : LogTree) (entries : List LogEntry) :
    (t.add entries).generation = t.generation := by rw [add_eq]

@[simp] theorem add_arena (t : LogTree) (entries : List LogEntry) :
    (t.add entries).arena = t.arena := by rw [add_eq]

@[simp] theorem load_generation (t : LogTree) : t.load.generation = t.generation + 1 := by
  rw [load, fileAll_eq]
  rfl

/-- **Only a value with a handle is fetched for**, and the fetch carries its identity, its handle
and the generation of the tree. -/
theorem opening_eq_fetch {t : LogTree} {registry : Registry} {id : String} {f : Fetch}
    (h : t.opening registry id = .fetch f) :
    ∃ p : Preview, t.arena.get? id = some (.value f.entry p) ∧ p.handle = some f.handle ∧
      f.parent = id ∧ f.generation = t.generation := by
  unfold opening at h
  split at h
  · cases h
  · cases h
  · split at h <;> cases h
  · next index p hn =>
    split at h
    · cases h
    · next handle hp =>
      cases h
      exact ⟨p, hn, hp, rfl, rfl⟩

/-- The identities of properties, in the order in which the properties came. -/
theorem ids_propertyItems (registry : Registry) (f : Fetch) (ps : List Property) :
    ((ps.map (propertyItem (f.formatter registry) f)).map (·.1)).map (·.id)
      = ps.map fun p => f.parent ++ "['" ++ p.name ++ "']" := by
  rw [List.map_map, List.map_map]
  rfl

end LogTree

namespace Browsing

/-- An action that does not rebuild the tree takes no identity back. -/
theorem contains_step {b : Browsing} {id : String} (h : b.tree.arena.contains id)
    {a : TreeAction} (ha : ¬ a.rebuilds) : (b.step a).2.tree.arena.contains id := by
  have look (hl : a.looks) : (b.step a).2.tree.arena.contains id := by
    rcases b.step_look hl with ⟨hs, -, -, ht⟩ | ⟨-, ht⟩
    · rw [ht]
      exact LogTree.contains_handOut h hs
    · rwa [ht]
  cases a with
  | add entries => simpa only [step, LogTree.add_arena] using h
  | serve ready => exact h
  | query e parent => exact look rfl
  | resume e ticket => exact look rfl
  | load => exact absurd rfl ha
  | clear => exact absurd rfl ha
  | reset => exact absurd rfl ha

/-- **Without a rebuild, what has been handed out stays known.** -/
theorem contains_run {id : String} : ∀ (actions : List TreeAction) (b : Browsing),
    b.tree.arena.contains id → (∀ a ∈ actions, ¬ a.rebuilds) →
      (b.run actions).tree.arena.contains id
  | [], _, h, _ => h
  | a :: rest, b, h, ha =>
      contains_run rest (b.step a).2 (contains_step h (ha a List.mem_cons_self))
        fun x hx => ha x (List.mem_cons_of_mem a hx)

/-- An object logged at the start of a file. -/
def loggedObject : LogEntry :=
  { args := [{ kind := .object, objectId := some "h" }], originalPosition := ⟨1, 1, "/a.ts"⟩ }

/-- A page whose objects have one property `x`, listed flat. -/
def flatPage : Surroundings :=
  { settings := { groupByPath := false, showEnumerable := true }
    answers := fun _ =>
      (some { result := [{ name := "x", value := some { kind := .undefined } }] }, some {}) }

end Browsing

end ConsoleLens
