import ConsoleLens.Tree.Arena
import Mathlib.Data.List.Dedup
import Mathlib.Data.List.DropRight

/-!
# Proofs/Tree/Arena — what an arena holds after any number of stores and clears

An arena is a row of nodes and an index into it, both of which a store changes and a clear empties.
Seen from outside it is **the list of what was stored since the last clear**, of which an identity
names the last node:

    actions ──run──▸ row and index ──get?──▸ node of an identity
        └────storedSince────▸ list ──last of an identity──┘

An identity has one key from its first store to the next clear (`key?_run_append`), and no other
identity has it, since the index leads from two identities to two places of the row.
-/

namespace ConsoleLens

/-- What happens to an arena: a node is put under an identity, or all nodes are dropped. -/
inductive ArenaAction where
  | store (id : String) (n : Node)
  | clear
  deriving DecidableEq

/-- The identity and the node that an action stores. -/
def ArenaAction.stored? : ArenaAction → Option (String × Node)
  | store id n => some (id, n)
  | clear => none

namespace Arena

/-- The arena after an action. -/
def step (a : Arena) : ArenaAction → Arena
  | .store id n => a.insert id n
  | .clear => empty

/-- The arena after actions, which is empty before them. -/
def run (actions : List ArenaAction) : Arena := actions.foldl step empty

/-- **What was stored since the last clear**, in order. -/
def storedSince (actions : List ArenaAction) : List (String × Node) :=
  (actions.rtakeWhile (· ≠ .clear)).filterMap ArenaAction.stored?

theorem run_concat (actions : List ArenaAction) (x : ArenaAction) :
    run (actions ++ [x]) = (run actions).step x := List.foldl_concat ..

theorem storedSince_clear (actions : List ArenaAction) :
    storedSince (actions ++ [.clear]) = [] := by
  rw [storedSince, List.rtakeWhile_concat_neg _ _ _ (by decide)]
  rfl

theorem storedSince_store (actions : List ArenaAction) (id : String) (n : Node) :
    storedSince (actions ++ [.store id n]) = storedSince actions ++ [(id, n)] := by
  rw [storedSince, List.rtakeWhile_concat_pos _ _ _ (by simp), List.filterMap_append]
  rfl

/-! ## Nodes -/

/-- **An identity names the last node stored under it since the last clear.** -/
theorem get?_run (actions : List ArenaAction) (id : String) :
    (run actions).get? id = (storedSince actions).reverse.lookup id := by
  induction actions using List.reverseRecOn with
  | nil => rfl
  | append_singleton actions x ih =>
    rw [run_concat]
    cases x with
    | clear =>
      rw [storedSince_clear]
      rfl
    | store id' n =>
      rw [step, get?_insert, storedSince_store, List.reverse_concat, List.lookup_cons, ih]
      rcases eq_or_ne id id' with rfl | hne
      · rw [if_pos rfl, beq_self_eq_true]
      · rw [if_neg hne, beq_false_of_ne hne]

theorem contains_run_iff (actions : List ArenaAction) (id : String) :
    (run actions).contains id ↔ id ∈ (storedSince actions).map Prod.fst := by
  rw [contains_iff, ← Option.isSome_iff_exists, get?_run, List.lookup_isSome_iff, List.mem_map]
  simp only [List.mem_reverse, beq_iff_eq]
  exact exists_congr fun p => and_congr_right fun _ => eq_comm

/-! ## The row -/

/-- The identities of the row are those that have a node. -/
theorem mem_ids_iff (a : Arena) (id : String) : id ∈ a.nodes.map Prod.fst ↔ a.contains id := by
  rw [contains, Option.isSome_iff_exists, List.mem_map]
  constructor
  · rintro ⟨⟨_, n⟩, hmem, rfl⟩
    obtain ⟨key, hkey⟩ := List.mem_iff_getElem?.mp hmem
    exact ⟨key, a.key?_eq_some_iff.mpr ⟨n, hkey⟩⟩
  · rintro ⟨key, hkey⟩
    obtain ⟨n, hn⟩ := a.key?_eq_some_iff.mp hkey
    exact ⟨(id, n), List.mem_of_getElem? hn, rfl⟩

/-- No identity stands in the row twice. -/
theorem nodup_ids (a : Arena) : (a.nodes.map Prod.fst).Nodup := by
  refine List.pairwise_map.mpr (List.pairwise_iff_getElem.mpr fun i j hi hj hij heq => ?_)
  have hkey (k : Nat) (hk : k < a.nodes.length) : a.key? a.nodes[k].1 = some k :=
    a.key?_eq_some_iff.mpr ⟨a.nodes[k].2, List.getElem?_eq_getElem hk⟩
  have hj' := hkey j hj
  rw [← heq, hkey i hi] at hj'
  exact hij.ne (Option.some.inj hj')

/-- **There are as many nodes as identities under which something was stored** since the last
clear. -/
theorem size_run (actions : List ArenaAction) :
    (run actions).size = ((storedSince actions).map Prod.fst).dedup.length := by
  have hperm : ((run actions).nodes.map Prod.fst).Perm
      ((storedSince actions).map Prod.fst).dedup := by
    refine (List.perm_ext_iff_of_nodup (run actions).nodup_ids (List.nodup_dedup _)).mpr fun id => ?_
    rw [mem_ids_iff, contains_run_iff, List.mem_dedup]
  rw [size, ← List.length_map Prod.fst, hperm.length_eq]

/-! ## Keys -/

/-- A node is given the key of its identity, or the one after the last. -/
theorem store_fst (a : Arena) (id : String) (n : Node) :
    (a.store id n).1 = (a.key? id).getD a.size := by
  unfold store
  split
  · next key h =>
    change key = _
    rw [h, Option.getD_some]
  · next h =>
    change a.size = _
    rw [h, Option.getD_none]

/-- **An identity keeps its key** whatever is stored. -/
theorem key?_insert_of_some {a : Arena} {id : String} {key : Nat} (h : a.key? id = some key)
    (id' : String) (n : Node) : (a.insert id' n).key? id = some key := by
  rw [key?_insert, store_fst]
  split
  · next heq => rw [← heq, h, Option.getD_some]
  · exact h

/-- …until the next clear. -/
theorem key?_foldl_step {a : Arena} {id : String} {key : Nat} (h : a.key? id = some key)
    {between : List ArenaAction} (hclear : ArenaAction.clear ∉ between) :
    (between.foldl step a).key? id = some key := by
  induction between generalizing a with
  | nil => exact h
  | cons x rest ih =>
    rw [List.mem_cons, not_or] at hclear
    cases x with
    | clear => exact absurd rfl hclear.1
    | store id' n => exact ih (key?_insert_of_some h id' n) hclear.2

/-- Where an identity has a key, a node is given that key just when it is stored under the
identity. -/
theorem store_fst_eq_iff {a : Arena} {id : String} {key : Nat} (h : a.key? id = some key)
    (id' : String) (n : Node) : (a.store id' n).1 = key ↔ id' = id := by
  rw [store_fst]
  constructor
  · cases hkey : a.key? id' with
    | some key' =>
      rintro rfl
      exact a.eq_of_key? hkey h
    | none => exact fun hsize => absurd (a.lt_size h) (Nat.not_lt.mpr hsize.le)
  · rintro rfl
    rw [h, Option.getD_some]

/-- **An arena holds the last node of each identity, under a key of its own.**  After any stores and
clears, an identity names the node stored last under it since the last clear, if there is one; it has
been handed out just when it names a node; two nodes that are stored without a clear in between are
given one key just when they have one identity; and there are as many nodes as identities. -/
theorem run_holds (actions : List ArenaAction) :
    (∀ id, (run actions).get? id = (storedSince actions).reverse.lookup id ∧
      (run actions).contains id = ((run actions).get? id).isSome) ∧
    (∀ id n between id' n', ArenaAction.clear ∉ between →
      (((run (actions ++ .store id n :: between)).store id' n').1 = ((run actions).store id n).1 ↔
        id' = id)) ∧
    (run actions).size = ((storedSince actions).map Prod.fst).dedup.length := by
  refine ⟨fun id => ⟨get?_run actions id, ?_⟩, fun id n between id' n' hclear => ?_,
    size_run actions⟩
  · rw [Bool.eq_iff_iff, contains_iff, Option.isSome_iff_exists]
  · have hfirst : ((run actions).insert id n).key? id = some ((run actions).store id n).1 := by
      rw [key?_insert, if_pos rfl]
    have hlater := key?_foldl_step hfirst hclear
    rw [run, List.foldl_append, List.foldl_cons]
    exact store_fst_eq_iff hlater id' n'

/-- A page that is listed, cleared, and listed again with another first entry. -/
def relisted : List ArenaAction :=
  [.store "src" (.group "src"), .store "a.ts:1:1[0]" (.entry 4), .clear,
    .store "a.ts:1:1[0]" (.entry 0), .store "src" (.group "src")]

/-- The entry has the node of the second listing, and it keeps the first key through two more
stores. -/
theorem run_holds_relisted :
    let between : List ArenaAction := [.store "src" (.group "src"), .store "b.ts:1:1[0]" (.entry 1)]
    ArenaAction.clear ∉ between ∧
    (run relisted).get? "a.ts:1:1[0]" = some (.entry 0) ∧
    (run relisted).contains "b.ts:1:1[0]" = false ∧
    ((run (relisted ++ .store "a.ts:1:1[0]" (.entry 0) :: between)).store "a.ts:1:1[0]"
      (.entry 2)).1 = ((run relisted).store "a.ts:1:1[0]" (.entry 0)).1 ∧
    ((run (relisted ++ .store "a.ts:1:1[0]" (.entry 0) :: between)).store "b.ts:1:1[0]"
      (.entry 2)).1 ≠ ((run relisted).store "a.ts:1:1[0]" (.entry 0)).1 ∧
    (run relisted).size = 2 := by
  intro between
  have hclear : ArenaAction.clear ∉ between := by decide
  obtain ⟨hnodes, hkeys, hsize⟩ := run_holds relisted
  have hkey (id : String) := hkeys "a.ts:1:1[0]" (.entry 0) between id (.entry 2) hclear
  refine ⟨hclear, ?_, ?_, (hkey _).mpr rfl, mt (hkey _).mp (by decide), ?_⟩
  · rw [(hnodes _).1]
    decide +kernel
  · rw [(hnodes _).2, (hnodes _).1]
    decide +kernel
  · rw [hsize]
    decide +kernel

end Arena

end ConsoleLens
