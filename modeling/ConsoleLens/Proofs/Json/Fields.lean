import ConsoleLens.Proofs.Json.Kept
import ConsoleLens.Remote.Codec
import Mathlib.Data.List.Nodup

/-!
# Proofs/Json/Fields — records written, and read again

A record is written field by field, and a field without a value is left out.  What is written for a
field is found under its name (`lookup_written`), so it is enough to look at single fields: **what
is read of a field is read again after it was written**, whether it has to be there
(`Faithful.required`), may be missing (`Faithful.optional`) or has a default (`Faithful.orElse`),
and a record returns if its fields do (`returns_record`).
-/

namespace ConsoleLens.Json

/-! ## Written members -/

/-- The members of the fields that have a value. -/
def written (fields : List (String × Option Json)) : List (String × Json) :=
  fields.flatMap fun f => member f.1 f.2

theorem mem_written {fields : List (String × Option Json)} {name : String} {j : Json} :
    (name, j) ∈ written fields ↔ (name, some j) ∈ fields := by
  rw [written, List.mem_flatMap]
  constructor
  · rintro ⟨⟨name', _ | v⟩, hf, hm⟩
    · cases hm
    · obtain ⟨rfl, rfl⟩ := Prod.mk.inj (List.mem_singleton.mp hm)
      exact hf
  · exact fun h => ⟨_, h, List.mem_singleton.mpr rfl⟩

theorem names_written_sublist (fields : List (String × Option Json)) :
    ((written fields).map (·.1)).Sublist (fields.map (·.1)) := by
  induction fields with
  | nil => exact .slnil
  | cons f rest ih =>
    obtain ⟨name, _ | v⟩ := f
    · exact ih.cons name
    · exact ih.cons_cons name

theorem nodup_written {fields : List (String × Option Json)} {members : List (String × Json)}
    (hmembers : members.Perm (written fields)) (h : (fields.map (·.1)).Nodup) :
    (members.map (·.1)).Nodup :=
  (hmembers.map _).nodup_iff.mpr (h.sublist (names_written_sublist fields))

theorem hasRepeats_eq_false {names : List String} (h : names.Nodup) : hasRepeats names = false := by
  induction names with
  | nil => rfl
  | cons name rest ih =>
    obtain ⟨hname, hrest⟩ := List.nodup_cons.mp h
    simp [hasRepeats, hname, ih hrest]

theorem lookup_of_mem_of_nodup {members : List (String × Json)} (h : (members.map (·.1)).Nodup)
    {name : String} {j : Json} (hm : (name, j) ∈ members) : members.lookup name = some j := by
  obtain ⟨before, after, rfl⟩ := List.append_of_mem hm
  refine List.lookup_eq_some_iff.mpr ⟨before, after, rfl, fun m hbefore => ?_⟩
  rw [List.map_append, List.nodup_append] at h
  exact bne_iff_ne.mpr fun heq =>
    h.2.2 m.1 (List.mem_map_of_mem hbefore) name (List.mem_cons_self ..) heq.symm

/-- **What is written for a field is found under its name**, and nothing if nothing is. -/
theorem lookup_written {fields : List (String × Option Json)} {members : List (String × Json)}
    (hmembers : members.Perm (written fields)) (h : (fields.map (·.1)).Nodup) {name : String}
    {v : Option Json} (hf : (name, v) ∈ fields) : members.lookup name = v := by
  have hmem {j : Json} : (name, j) ∈ members ↔ (name, some j) ∈ fields :=
    hmembers.mem_iff.trans mem_written
  cases v with
  | some j => exact lookup_of_mem_of_nodup (nodup_written hmembers h) (hmem.mpr hf)
  | none =>
    refine Option.eq_none_iff_forall_ne_some.mpr fun j hj => ?_
    -- the field would stand there twice, with a value and without
    have hsome := hmem.mp (mem_of_lookup hj)
    cases List.inj_on_of_nodup_map h hf hsome rfl

/-- All that is written is declared, so a reader of these fields sees all of it. -/
theorem record?_written {fields : List (String × Option Json)} {members : List (String × Json)}
    (hmembers : members.Perm (written fields)) (h : (fields.map (·.1)).Nodup) :
    record? (fields.map (·.1)) (.object members) = some members := by
  have hall : members.filter (fun m => (fields.map (·.1)).contains m.1) = members := by
    refine List.filter_eq_self.mpr fun m hm => List.contains_iff_mem.mpr ?_
    exact (names_written_sublist fields).subset (List.mem_map_of_mem (hmembers.mem_iff.mp hm))
  simp only [record?, hall, hasRepeats_eq_false (nodup_written hmembers h)]
  rfl

/-! ## Values that are written for others -/

/-- A value can be printed as well as the one that it was read from. -/
structure Passes (j k : Json) : Prop where
  usable : k.isUsable = true
  spelled : j.Spelled → k.Spelled

/-- The numbers of a field are spelled as such if those of the record are. -/
theorem spelled_of_get? {names : List String} {j v : Json} {r : Record} {name : String}
    (hr : j.record? names = some r) (hv : r.get? name = some v) (hj : j.Spelled) : v.Spelled := by
  have hmem := mem_of_lookup hv
  cases j with
  | object members =>
    simp only [record?] at hr
    split at hr
    · cases hr
    · cases hr
      exact membersSpelled_iff.mp hj _ (List.mem_filter.mp hmem).1
  | array items =>
    simp only [record?] at hr
    split at hr
    · cases hr
      exact itemsSpelled_iff.mp hj _ (List.of_mem_zip hmem).2
    · cases hr
  | _ => cases hr

theorem Passes.of_get? {names : List String} {j v k : Json} {r : Record} {name : String}
    (h : Passes v k) (hr : j.record? names = some r) (hv : r.get? name = some v) : Passes j k :=
  ⟨h.usable, fun hj => h.spelled (spelled_of_get? hr hv hj)⟩

theorem passes_written {j : Json} {fields : List (String × Option Json)}
    (h : ∀ f ∈ fields, ∀ k ∈ f.2, Passes j k) : Passes j (.object (written fields)) := by
  have hmem (m : String × Json) (hm : m ∈ written fields) : Passes j m.2 :=
    h _ (mem_written.mp hm) m.2 rfl
  exact ⟨membersUsable_iff.mpr fun m hm => (hmem m hm).usable,
    fun hj => membersSpelled_iff.mpr fun m hm => (hmem m hm).spelled hj⟩

/-! ## Values and fields that return -/

section

variable {α : Type} {read : Json → Option α} {write : α → Json} {names : List String} {j : Json}
  {r : Record} {name : String} {a : α}

/-- **What is written for a value is read as that value**, and can be printed as well as `j`. -/
structure Returns (j : Json) (read : Json → Option α) (write : α → Json) (a : α) : Prop where
  reread : read (write a) = some a
  passes : Passes j (write a)

/-- What is written for a field is read as the field's value. -/
structure FieldReturns (j : Json) (name : String) (v : Option Json) (read : Record → Option α)
    (a : α) : Prop where
  reread : ∀ r : Record, r.get? name = v → read r = some a
  passes : ∀ k ∈ v, Passes j k

/-- What is written for some fields is read, one after another, as a record with their values. -/
structure FieldsReturn (j : Json) (fields : List (String × Option Json))
    (readFields : Record → Option α) (a : α) : Prop where
  reread : ∀ r : Record, (∀ f ∈ fields, r.get? f.1 = f.2) → readFields r = some a
  passes : ∀ f ∈ fields, ∀ k ∈ f.2, Passes j k

theorem FieldsReturn.nil : FieldsReturn j [] (fun _ => some a) a :=
  ⟨fun _ _ => rfl, List.forall_mem_nil _⟩

theorem FieldReturns.cons {β : Type} {b : β} {v : Option Json} {readField : Record → Option β}
    {fields : List (String × Option Json)} {readFields : β → Record → Option α}
    (h : FieldReturns j name v readField b) (hrest : FieldsReturn j fields (readFields b) a) :
    FieldsReturn j ((name, v) :: fields) (fun r => readField r >>= fun b => readFields b r) a where
  reread r hr := by
    obtain ⟨hv, hfields⟩ := List.forall_mem_cons.mp hr
    rw [h.reread r hv, Option.bind_eq_bind, Option.bind_some, hrest.reread r hfields]
  passes := List.forall_mem_cons.mpr ⟨h.passes, hrest.passes⟩

/-- **A record is read from its fields**, in whatever order they are written. -/
theorem read_written {fields : List (String × Option Json)} {members : List (String × Json)}
    {readFields : Record → Option α} (hread : ∀ j, read j = j.record? names >>= readFields)
    (hnodup : names.Nodup) (hmembers : members.Perm (written fields))
    (hnames : fields.map (·.1) = names) (h : FieldsReturn j fields readFields a) :
    read (.object members) = some a := by
  subst hnames
  rw [hread, record?_written hmembers hnodup, Option.bind_eq_bind, Option.bind_some]
  exact h.reread _ fun f hf => lookup_written hmembers hnodup hf

/-- **A record returns if its fields do.** -/
theorem returns_record {fields : List (String × Option Json)} {readFields : Record → Option α}
    (hread : ∀ j, read j = j.record? names >>= readFields) (hnodup : names.Nodup)
    (hwrite : write a = .object (written fields)) (hnames : fields.map (·.1) = names)
    (h : FieldsReturn j fields readFields a) : Returns j read write a where
  reread := hwrite ▸ read_written hread hnodup (.refl _) hnames h
  passes := hwrite ▸ passes_written h.passes

theorem nullable?_of_ne_null (h : j ≠ .null) : nullable? read j = (read j).map some := by
  unfold nullable?
  split
  · exact absurd rfl h
  · rfl

theorem Returns.ne_null (h : Returns j read write a) (hnull : read .null = none) :
    write a ≠ .null := by
  intro heq
  have hreread := h.reread
  rw [heq, hnull] at hreread
  cases hreread

theorem Returns.required (h : Returns j read write a) :
    FieldReturns j name (some (write a)) (·.required name read) a where
  reread r hr := by rw [Record.required, hr, Option.bind_some, h.reread]
  passes _ hk := Option.some.inj hk ▸ h.passes

theorem Returns.orElse {default : α} (h : Returns j read write a) :
    FieldReturns j name (some (write a)) (·.orElse name default read) a where
  reread r hr := by rw [Record.orElse, hr]; exact h.reread
  passes _ hk := Option.some.inj hk ▸ h.passes

/-- A value that is missing is left out, and one that is there is not written as `null`. -/
theorem fieldReturns_optional {o : Option α} (hnull : read .null = none)
    (h : ∀ a ∈ o, Returns j read write a) :
    FieldReturns j name (o.map write) (·.optional name read) o := by
  cases o with
  | none =>
    exact ⟨fun r hr => by rw [Record.optional, hr, Option.map_none], fun k hk => by cases hk⟩
  | some a =>
    have ha := h a rfl
    refine ⟨fun r hr => ?_, fun k hk => Option.some.inj hk ▸ ha.passes⟩
    rw [Record.optional, hr, Option.map_some]
    exact (nullable?_of_ne_null (ha.ne_null hnull)).trans (by rw [ha.reread, Option.map_some])

theorem exists_of_optional (h : r.optional name read = some (some a)) :
    ∃ v, r.get? name = some v ∧ read v = some a := by
  unfold Record.optional nullable? at h
  split at h
  · cases h
  · next v hv =>
    refine ⟨v, hv, ?_⟩
    split at h
    · cases h
    · obtain ⟨_, hread, ha⟩ := Option.map_eq_some_iff.mp h
      exact hread.trans ha

/-! ## Readers that agree with their writers -/

/-- **Whatever is read returns**, and `null` is never read. -/
structure Faithful (read : Json → Option α) (write : α → Json) : Prop where
  null : read .null = none
  returns : ∀ {j a}, read j = some a → Returns j read write a

namespace Faithful

theorem of_get? (h : Faithful read write) (hr : j.record? names = some r) {v : Json}
    (hv : r.get? name = some v) (ha : read v = some a) : Returns j read write a :=
  ⟨(h.returns ha).reread, (h.returns ha).passes.of_get? hr hv⟩

theorem required (h : Faithful read write) (hr : j.record? names = some r)
    (ha : r.required name read = some a) :
    FieldReturns j name (some (write a)) (·.required name read) a := by
  obtain ⟨v, hv, hread⟩ := Option.bind_eq_some_iff.mp ha
  exact (h.of_get? hr hv hread).required

theorem optional (h : Faithful read write) (hr : j.record? names = some r) {o : Option α}
    (ho : r.optional name read = some o) :
    FieldReturns j name (o.map write) (·.optional name read) o := by
  refine fieldReturns_optional h.null fun a ha => ?_
  obtain rfl : o = some a := ha
  obtain ⟨v, hv, hread⟩ := exists_of_optional ho
  exact h.of_get? hr hv hread

/-- A default is written like any other value. -/
theorem orElse (h : Faithful read write) (hr : j.record? names = some r) {default : α}
    (hdefault : Returns j read write default) (ha : r.orElse name default read = some a) :
    FieldReturns j name (some (write a)) (·.orElse name default read) a := by
  unfold Record.orElse at ha
  split at ha
  · obtain rfl := Option.some.inj ha
    exact hdefault.orElse
  · next v hv => exact (h.of_get? hr hv ha).orElse

end Faithful

/-! ## Texts, truth values, indices and lists -/

theorem passes_string (j : Json) (s : String) : Passes j (.string s) := ⟨rfl, fun _ => trivial⟩

theorem passes_bool (j : Json) (b : Bool) : Passes j (.bool b) := ⟨rfl, fun _ => trivial⟩

theorem returns_text (j : Json) (s : String) : Returns j text? .string s :=
  ⟨rfl, passes_string j s⟩

theorem returns_bool (j : Json) (b : Bool) : Returns j bool? .bool b := ⟨rfl, passes_bool j b⟩

theorem fieldReturns_text (j : Json) (o : Option String) :
    FieldReturns j name (o.map .string) (·.optional name text?) o :=
  fieldReturns_optional rfl fun s _ => returns_text j s

theorem faithful_text : Faithful text? .string := ⟨rfl, fun _ => returns_text _ _⟩

theorem faithful_bool : Faithful bool? .bool := ⟨rfl, fun _ => returns_bool _ _⟩

theorem nat?_ofNat {n limit : Nat} (h : n ≤ limit) : nat? limit (ofNat n) = some n := by
  rw [ofNat, nat?, String.toList_ofList, Digits.decimal?_decimal]
  exact Option.filter_eq_some_iff.mpr ⟨rfl, decide_eq_true h⟩

theorem passes_ofNat (j : Json) (n : Nat) : Passes j (ofNat n) := by
  refine ⟨rfl, fun _ => ?_⟩
  rw [ofNat, Spelled, String.toList_ofList]
  exact isLiteral_decimal n

theorem faithful_index : Faithful index? ofNat where
  null := rfl
  returns {j n} h := by
    have hn : n ≤ maxIndex := by
      cases j with
      | number literal => exact of_decide_eq_true (Option.filter_eq_some_iff.mp h).2
      | _ => cases h
    exact ⟨nat?_ofNat hn, passes_ofNat j n⟩

/-- A list is read when all of its items are. -/
theorem mapM_eq_some {items : List Json} {as : List α} :
    items.mapM read = some as ↔ List.Forall₂ (read · = some ·) items as := by
  induction items generalizing as with
  | nil =>
    rw [List.mapM_nil, List.forall₂_nil_left_iff]
    exact ⟨fun h => (Option.some.inj h).symm, fun h => congrArg some h.symm⟩
  | cons j rest ih =>
    rw [List.mapM_cons, List.forall₂_cons_left_iff]
    constructor
    · intro h
      obtain ⟨a, ha, h⟩ := Option.bind_eq_some_iff.mp h
      obtain ⟨as, has, h⟩ := Option.bind_eq_some_iff.mp h
      exact ⟨a, as, ha, ih.mp has, (Option.some.inj h).symm⟩
    · rintro ⟨a, as, ha, has, rfl⟩
      exact Option.bind_eq_some_iff.mpr ⟨a, ha, Option.bind_eq_some_iff.mpr ⟨as, ih.mpr has, rfl⟩⟩

theorem exists_of_mem_mapM {items : List Json} {as : List α} (h : items.mapM read = some as)
    (ha : a ∈ as) : ∃ k ∈ items, read k = some a := by
  induction mapM_eq_some.mp h with
  | nil => cases ha
  | cons hread hrest ih =>
    rcases List.mem_cons.mp ha with rfl | ha
    · exact ⟨_, List.mem_cons_self .., hread⟩
    · obtain ⟨k, hk, hka⟩ := ih (mapM_eq_some.mpr hrest) ha
      exact ⟨k, List.mem_cons_of_mem _ hk, hka⟩

/-- A list returns if all its items do. -/
theorem returns_list {as : List α} (h : ∀ a ∈ as, Returns j read write a) :
    Returns j (list? read) (ofList write) as := by
  refine ⟨?_, areUsable_iff.mpr ?_, fun hj => itemsSpelled_iff.mpr ?_⟩
  · refine mapM_eq_some.mpr (List.forall₂_map_left_iff.mpr (List.forall₂_same.mpr ?_))
    exact fun a ha => (h a ha).reread
  · simpa using fun a ha => (h a ha).passes.usable
  · simpa using fun a ha => (h a ha).passes.spelled hj

theorem Faithful.list (h : Faithful read write) : Faithful (list? read) (ofList write) where
  null := rfl
  returns {j as} hread := by
    cases j with
    | array items =>
      refine returns_list fun a ha => ?_
      obtain ⟨k, hk, hka⟩ := exists_of_mem_mapM hread ha
      exact ⟨(h.returns hka).reread, (h.returns hka).passes.usable,
        fun hj => (h.returns hka).passes.spelled (itemsSpelled_iff.mp hj k hk)⟩
    | _ => cases hread

end

end ConsoleLens.Json
