import ConsoleLens.Preview.Basic
import ConsoleLens.Table

/-!
# Tree/Arena — the nodes handed out so far

An identity names one node, the one handed out under it last.  The nodes stand in a row, each with
its identity, and the place of a node in the row is its **key**; an index leads from identities to
keys.  **A node keeps its key when it is replaced**, and an identity that is new gets the next key.

    identity ──index──▸ key ──nodes──▸ (identity, node)

An arena carries the proof that its row and its index agree.
-/

namespace ConsoleLens

/-- What an identity stands for. -/
inductive Node where
  /-- The group at a path. -/
  | group (path : String)
  /-- The entry at an index, with its arguments below it. -/
  | entry (index : Nat)
  /-- A value that belongs to the entry at an index. -/
  | value (index : Nat) (preview : Preview)
  deriving DecidableEq

/-- Where no nodes stand, no identity has a key. -/
theorem indexed_nil (id : String) (key : Nat) :
    (Table.empty : Table String Nat).get? id = some key ↔
      ∃ n, ([] : List (String × Node))[key]? = some (id, n) :=
  ⟨nofun, nofun⟩

/-- The nodes handed out since the last rebuild. -/
structure Arena where
  /-- The nodes in the order of their keys, each with its identity. -/
  nodes : List (String × Node) := []
  /-- The keys of identities. -/
  index : Table String Nat := .empty
  /-- **The key of an identity is where its node stands**, and no node stands elsewhere. -/
  indexed (id : String) (key : Nat) :
    index.get? id = some key ↔ ∃ n, nodes[key]? = some (id, n) := by exact indexed_nil

namespace Arena

/-- The arena without nodes. -/
def empty : Arena := {}

/-- The key of an identity. -/
def key? (a : Arena) (id : String) : Option Nat := a.index.get? id

/-- The node of an identity. -/
def get? (a : Arena) (id : String) : Option Node :=
  (a.key? id).bind fun key => a.nodes[key]?.map (·.2)

/-- Whether an identity has been handed out. -/
def contains (a : Arena) (id : String) : Bool := (a.key? id).isSome

/-- The number of nodes. -/
def size (a : Arena) : Nat := a.nodes.length

variable (a : Arena) {id : String} {key : Nat}

theorem key?_eq_some_iff : a.key? id = some key ↔ ∃ n, a.nodes[key]? = some (id, n) :=
  a.indexed id key

/-- A key of an identity is one of the row. -/
theorem lt_size (h : a.key? id = some key) : key < a.size := by
  obtain ⟨n, hn⟩ := a.key?_eq_some_iff.mp h
  exact (List.getElem?_eq_some_iff.mp hn).1

/-- **No two identities have one key.** -/
theorem eq_of_key? {id' : String} (h : a.key? id = some key) (h' : a.key? id' = some key) :
    id = id' := by
  obtain ⟨n, hn⟩ := a.key?_eq_some_iff.mp h
  obtain ⟨n', hn'⟩ := a.key?_eq_some_iff.mp h'
  rw [hn, Option.some.injEq, Prod.mk.injEq] at hn'
  exact hn'.1

/-- Another node at the key of its identity. -/
theorem indexed_set (h : a.key? id = some key) (n : Node) (id' : String) (key' : Nat) :
    a.index.get? id' = some key' ↔ ∃ m, (a.nodes.set key (id, n))[key']? = some (id', m) := by
  have hlt : key < a.nodes.length := a.lt_size h
  rw [List.getElem?_set]
  simp only [hlt, if_true]
  split
  · next heq =>
    subst heq
    constructor
    · intro h'
      exact ⟨n, congrArg (fun i => some (i, n)) (a.eq_of_key? h h')⟩
    · rintro ⟨m, hm⟩
      obtain ⟨rfl, -⟩ := Prod.mk.inj (Option.some.inj hm)
      exact h
  · exact a.indexed id' key'

/-- A row with one more at its end. -/
theorem getElem?_concat {α : Type} (row : List α) (x : α) (i : Nat) :
    (row ++ [x])[i]? = if i = row.length then some x else row[i]? := by
  split
  · next heq => rw [heq, List.getElem?_concat_length]
  · next hne =>
    rcases Nat.lt_or_gt_of_ne hne with hlt | hgt
    · exact List.getElem?_append_left hlt
    · rw [List.getElem?_eq_none (Nat.le_of_lt hgt), List.getElem?_eq_none]
      rwa [List.length_append, List.length_singleton]

/-- A node of a new identity at the end of the row. -/
theorem indexed_append (h : a.key? id = none) (n : Node) (id' : String) (key' : Nat) :
    (a.index.insert id a.size).get? id' = some key' ↔
      ∃ m, (a.nodes ++ [(id, n)])[key']? = some (id', m) := by
  rw [Table.get?_insert, getElem?_concat]
  split
  · next heq =>
    subst heq
    split
    · next hkey => exact iff_of_true (congrArg some hkey.symm) ⟨n, rfl⟩
    · next hkey =>
      refine iff_of_false (fun hsize => hkey (Option.some.inj hsize).symm) fun hm => ?_
      rw [a.key?_eq_some_iff.mpr hm] at h
      cases h
  · next hne =>
    split
    · next hkey =>
      subst hkey
      refine iff_of_false (fun hsize => Nat.lt_irrefl _ (a.lt_size hsize)) ?_
      rintro ⟨m, hm⟩
      exact hne (Prod.mk.inj (Option.some.inj hm)).1.symm
    · exact a.indexed id' key'

/-- **Puts a node under an identity**, and gives its key: the one that the identity has, or the
next. -/
def store (id : String) (n : Node) : Nat × Arena :=
  match h : a.key? id with
  | some key => (key, { a with
      nodes := a.nodes.set key (id, n)
      indexed := a.indexed_set h n })
  | none => (a.size, {
      nodes := a.nodes ++ [(id, n)]
      index := a.index.insert id a.size
      indexed := a.indexed_append h n })

/-- **The arena with a node under an identity.** -/
def insert (a : Arena) (id : String) (n : Node) : Arena := (a.store id n).2

/-- The key that a node is given is now that of its identity; the other keys stay. -/
theorem key?_insert (id id' : String) (n : Node) :
    (a.insert id n).key? id' = if id' = id then some (a.store id n).1 else a.key? id' := by
  unfold insert store
  split
  · next key h =>
    split
    · next heq => exact heq ▸ h
    · rfl
  · exact Table.get?_insert a.index id id' a.size

/-- The node stands at the key that it is given; the other nodes stay. -/
theorem getElem?_nodes_insert (id : String) (n : Node) (key : Nat) :
    (a.insert id n).nodes[key]? =
      if key = (a.store id n).1 then some (id, n) else a.nodes[key]? := by
  unfold insert store
  split
  · next key' h =>
    have hlt : key' < a.nodes.length := a.lt_size h
    simp only [List.getElem?_set, hlt, if_true, eq_comm]
  · exact getElem?_concat a.nodes (id, n) key

@[simp] theorem get?_empty (id : String) : empty.get? id = none := rfl

/-- **An identity names the node handed out last.** -/
@[simp] theorem get?_insert (id id' : String) (n : Node) :
    (a.insert id n).get? id' = if id' = id then some n else a.get? id' := by
  have hkey := a.key?_insert id id' n
  rw [get?, hkey]
  split
  · rw [Option.bind_some, getElem?_nodes_insert, if_pos rfl]
    rfl
  · next hne =>
    rw [if_neg hne] at hkey
    refine Option.bind_congr fun key hid => ?_
    rw [getElem?_nodes_insert, if_neg]
    rintro rfl
    exact hne ((a.insert id n).eq_of_key? (hkey.trans hid) (by rw [key?_insert, if_pos rfl]))

/-- An identity has been handed out when it names a node. -/
theorem contains_iff (a : Arena) (id : String) : a.contains id ↔ ∃ n, a.get? id = some n := by
  rw [contains, Option.isSome_iff_exists]
  constructor
  · rintro ⟨key, h⟩
    obtain ⟨n, hn⟩ := a.key?_eq_some_iff.mp h
    exact ⟨n, by rw [get?, h, Option.bind_some, hn]; rfl⟩
  · rintro ⟨n, hn⟩
    obtain ⟨key, h, -⟩ := Option.bind_eq_some_iff.mp hn
    exact ⟨key, h⟩

end Arena

end ConsoleLens
