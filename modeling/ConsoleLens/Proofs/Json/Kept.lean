import ConsoleLens.Json.Record
import ConsoleLens.Proofs.Json.Text

/-!
# Proofs/Json/Kept — values as they are kept

A value is kept with its members sorted, the last of equal names winning, and its literals in one
spelling.  Sorting finds nothing to do a second time and drops members only, so **what is kept is
kept as it is** (`Settled.kept`), and it stays usable and its numbers stay numbers.
-/

namespace ConsoleLens.Json

/-! ## Parts of a container -/

theorem areUsable_iff {items : List Json} :
    areUsable items = true ↔ ∀ j ∈ items, j.isUsable = true := by
  induction items with
  | nil => simp [areUsable]
  | cons j rest ih => simp [areUsable, ih]

theorem membersUsable_iff {members : List (String × Json)} :
    membersUsable members = true ↔ ∀ m ∈ members, m.2.isUsable = true := by
  induction members with
  | nil => simp [membersUsable]
  | cons m rest ih =>
    rw [membersUsable, Bool.and_eq_true, ih, List.forall_mem_cons]

theorem itemsSpelled_iff {items : List Json} : ItemsSpelled items ↔ ∀ j ∈ items, j.Spelled := by
  induction items with
  | nil => simp [ItemsSpelled]
  | cons j rest ih => simp [ItemsSpelled, ih]

theorem membersSpelled_iff {members : List (String × Json)} :
    MembersSpelled members ↔ ∀ m ∈ members, m.2.Spelled := by
  induction members with
  | nil => simp [MembersSpelled]
  | cons m rest ih => rw [MembersSpelled, ih, List.forall_mem_cons]

theorem canonicalItems_eq_self {items : List Json} (h : ∀ j ∈ items, j.canonical = j) :
    canonicalItems items = items := by
  induction items with
  | nil => rfl
  | cons j rest ih =>
    rw [List.forall_mem_cons] at h
    rw [canonicalItems, h.1, ih h.2]

theorem canonicalMembers_eq_self {members : List (String × Json)}
    (h : ∀ m ∈ members, m.2.canonical = m.2) : canonicalMembers members = members := by
  induction members with
  | nil => rfl
  | cons m rest ih =>
    rw [List.forall_mem_cons] at h
    rw [canonicalMembers, h.1, ih h.2]

/-! ## Sorting -/

/-- Names one after the other. -/
def InOrder (members : List (String × Json)) : Prop := members.Pairwise (·.1 < ·.1)

theorem mem_insertMember {name : String} {v : Json} {members : List (String × Json)}
    {m : String × Json} (h : m ∈ insertMember name v members) : m = (name, v) ∨ m ∈ members := by
  induction members with
  | nil => exact .inl (List.mem_singleton.mp h)
  | cons m' rest ih =>
    unfold insertMember at h
    split_ifs at h
    · exact List.mem_cons.mp h
    · exact (List.mem_cons.mp h).imp_right (List.mem_cons_of_mem _)
    · rcases List.mem_cons.mp h with rfl | h
      · exact .inr List.mem_cons_self
      · exact (ih h).imp_right (List.mem_cons_of_mem _)

theorem InOrder.insertMember {members : List (String × Json)} (h : InOrder members) (name : String)
    (v : Json) : InOrder (insertMember name v members) := by
  induction members with
  | nil => exact List.pairwise_singleton _ _
  | cons m rest ih =>
    obtain ⟨hm, hrest⟩ := List.pairwise_cons.mp h
    unfold Json.insertMember
    split_ifs with hlt heq
    · refine List.pairwise_cons.mpr ⟨fun m' hm' => ?_, h⟩
      rcases List.mem_cons.mp hm' with rfl | hm'
      · exact hlt
      · exact String.lt_trans hlt (hm m' hm')
    · exact List.pairwise_cons.mpr ⟨fun m' hm' => heq ▸ hm m' hm', hrest⟩
    · refine List.pairwise_cons.mpr ⟨fun m' hm' => ?_, ih hrest⟩
      rcases mem_insertMember hm' with rfl | hm'
      · exact String.not_le.mp fun hle => heq (String.le_antisymm hle (String.not_lt.mp hlt))
      · exact hm m' hm'

/-- A member behind all others comes last. -/
theorem insertMember_eq_append {name : String} {v : Json} {members : List (String × Json)}
    (h : ∀ m ∈ members, m.1 < name) : insertMember name v members = members ++ [(name, v)] := by
  induction members with
  | nil => rfl
  | cons m rest ih =>
    obtain ⟨hm, hrest⟩ := List.forall_mem_cons.mp h
    have hlt : ¬ name < m.1 := fun hlt => String.lt_irrefl _ (String.lt_trans hm hlt)
    have hne : name ≠ m.1 := fun heq => String.lt_irrefl _ (heq ▸ hm)
    rw [insertMember, if_neg hlt, if_neg hne, ih hrest, List.cons_append]

theorem inOrder_sortMembers (members : List (String × Json)) : InOrder (sortMembers members) := by
  have hfold : ∀ (members : List (String × Json)) {sorted}, InOrder sorted →
      InOrder (members.foldl (fun sorted m => insertMember m.1 m.2 sorted) sorted) := by
    intro members
    induction members with
    | nil => exact fun h => h
    | cons m rest ih => exact fun h => ih (h.insertMember m.1 m.2)
  exact hfold members .nil

/-- Sorting drops members, and adds none. -/
theorem mem_of_mem_sortMembers {members : List (String × Json)} {m : String × Json}
    (h : m ∈ sortMembers members) : m ∈ members := by
  have hfold : ∀ (members : List (String × Json)) {sorted},
      m ∈ members.foldl (fun sorted m => insertMember m.1 m.2 sorted) sorted →
        m ∈ sorted ∨ m ∈ members := by
    intro members
    induction members with
    | nil => exact fun h => .inl h
    | cons m' rest ih =>
      intro sorted h
      rcases ih h with h | h
      · rcases mem_insertMember h with rfl | h
        · exact .inr List.mem_cons_self
        · exact .inl h
      · exact .inr (List.mem_cons_of_mem m' h)
  exact (hfold members h).resolve_left List.not_mem_nil

/-- **Sorting leaves what is in order.** -/
theorem InOrder.sortMembers_eq {members : List (String × Json)} (h : InOrder members) :
    sortMembers members = members := by
  have hfold : ∀ (members sorted : List (String × Json)), InOrder (sorted ++ members) →
      members.foldl (fun sorted m => Json.insertMember m.1 m.2 sorted) sorted =
        sorted ++ members := by
    intro members
    induction members with
    | nil => exact fun sorted _ => (List.append_nil sorted).symm
    | cons m rest ih =>
      intro sorted h
      have hlast : ∀ m' ∈ sorted, m'.1 < m.1 := fun m' hm' =>
        (List.pairwise_append.mp h).2.2 m' hm' m List.mem_cons_self
      rw [List.append_cons] at h ⊢
      rw [List.foldl_cons, insertMember_eq_append hlast, ih _ h]
  exact hfold members [] h

/-! ## Values -/

/-- **What is kept of a value is settled**: kept as it is, usable if the value is, and its numbers
spelled as such if the value's are. -/
structure Settled (j k : Json) : Prop where
  kept : k.canonical = k
  usable : j.isUsable = true → k.isUsable = true
  spelled : j.Spelled → k.Spelled

mutual

theorem settled_canonical : ∀ j : Json, Settled j j.canonical
  | .null => ⟨rfl, id, id⟩
  | .bool _ => ⟨rfl, id, id⟩
  | .string _ => ⟨rfl, id, id⟩
  | .unusable => ⟨rfl, id, id⟩
  | .number literal =>
    ⟨congrArg number (canonicalLiteral_canonicalLiteral literal), fun _ => rfl, IsLiteral.canonical⟩
  | .array items => by
      have hitems := settled_canonicalItems items
      refine ⟨?_, fun h => areUsable_iff.mpr fun k hk => ?_,
        fun h => itemsSpelled_iff.mpr fun k hk => ?_⟩
      · rw [canonical, canonical, canonicalItems_eq_self fun k hk => ?_]
        obtain ⟨j, -, hj⟩ := hitems k hk
        exact hj.kept
      · obtain ⟨j, hmem, hj⟩ := hitems k hk
        exact hj.usable (areUsable_iff.mp h j hmem)
      · obtain ⟨j, hmem, hj⟩ := hitems k hk
        exact hj.spelled (itemsSpelled_iff.mp h j hmem)
  | .object members => by
      have hmembers (k : String × Json) (hk : k ∈ sortMembers (canonicalMembers members)) :
          ∃ m ∈ members, Settled m.2 k.2 :=
        settled_canonicalMembers members k (mem_of_mem_sortMembers hk)
      refine ⟨?_, fun h => membersUsable_iff.mpr fun k hk => ?_,
        fun h => membersSpelled_iff.mpr fun k hk => ?_⟩
      · rw [canonical, canonical, canonicalMembers_eq_self fun k hk => ?_,
          (inOrder_sortMembers _).sortMembers_eq]
        obtain ⟨m, -, hm⟩ := hmembers k hk
        exact hm.kept
      · obtain ⟨m, hmem, hm⟩ := hmembers k hk
        exact hm.usable (membersUsable_iff.mp h m hmem)
      · obtain ⟨m, hmem, hm⟩ := hmembers k hk
        exact hm.spelled (membersSpelled_iff.mp h m hmem)

theorem settled_canonicalItems : ∀ items : List Json,
    ∀ k ∈ canonicalItems items, ∃ j ∈ items, Settled j k
  | [], _, hk => by cases hk
  | j :: rest, k, hk => by
      rcases List.mem_cons.mp hk with rfl | hk
      · exact ⟨j, List.mem_cons_self, settled_canonical j⟩
      · obtain ⟨j', hmem, hj'⟩ := settled_canonicalItems rest k hk
        exact ⟨j', List.mem_cons_of_mem j hmem, hj'⟩

theorem settled_canonicalMembers : ∀ members : List (String × Json),
    ∀ k ∈ canonicalMembers members, ∃ m ∈ members, Settled m.2 k.2
  | [], _, hk => by cases hk
  | (name, j) :: rest, k, hk => by
      rcases List.mem_cons.mp hk with rfl | hk
      · exact ⟨(name, j), List.mem_cons_self, settled_canonical j⟩
      · obtain ⟨m, hmem, hm⟩ := settled_canonicalMembers rest k hk
        exact ⟨m, List.mem_cons_of_mem _ hmem, hm⟩

end

/-- **A value as it is kept**: one that can be used, and that keeping leaves alone. -/
def Kept (j : Json) : Prop := j.isUsable = true ∧ j.canonical = j

theorem any?_eq_some {j k : Json} : any? j = some k ↔ j.isUsable = true ∧ j.canonical = k := by
  rw [any?, Option.ite_none_right_eq_some, Option.some.injEq]

theorem Kept.any?_eq {j : Json} (h : j.Kept) : any? j = some j := any?_eq_some.mpr h

theorem kept_of_any? {j k : Json} (h : any? j = some k) : k.Kept ∧ (j.Spelled → k.Spelled) := by
  obtain ⟨husable, rfl⟩ := any?_eq_some.mp h
  have hsettled := settled_canonical j
  exact ⟨⟨hsettled.usable husable, hsettled.kept⟩, hsettled.spelled⟩

end ConsoleLens.Json
