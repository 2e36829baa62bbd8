import ConsoleLens.Proofs.Keyed
import ConsoleLens.Proofs.Text.Bytes
import ConsoleLens.Property.Basic
import Mathlib.Data.Prod.Lex

/-!
# Proofs/Property/Shown — which properties are shown, and in which order

Of each name, apart for regular properties and internal slots, two answers report the first
descriptor that has a value (`Reports`).  What is reported is shown if it is enumerable, a slot, or
if everything is shown; so **the descriptor that stands for a name is chosen before any is hidden**
(`mem_merge_iff`).

The display order compares classes and names, and a regular property has the class and the name of
a slot at times.  The sort is stable and regular properties come in first:

    class  ▸  bytes of the name  ▸  regular before internal

That is a strict order of what is reported (`Before`), and the properties stand in it
(`pairwise_merge`).  **A list in a strict order is known by its members** (`Keyed.eq_of_mem_iff`):
to hide properties is to leave them out of the list of all (`merge_false`).
-/

namespace ConsoleLens

/-- The internal slots of an answer, none if their list is missing. -/
def PropertiesAnswer.slots (a : PropertiesAnswer) : List InternalDescriptor :=
  a.internalProperties.getD []

namespace Property

/-! ## The first of each name -/

/-- The first property of each name stands for it, and none that is among those seen. -/
theorem nodup_keys_firsts (seen : List (Bool × String)) (ps : List Property) :
    ((firsts seen ps).map key).Nodup ∧ ∀ p ∈ firsts seen ps, p.key ∉ seen := by
  induction ps generalizing seen with
  | nil => exact ⟨List.nodup_nil, List.forall_mem_nil _⟩
  | cons p rest ih =>
    unfold firsts
    split
    · exact ih seen
    · next hp =>
      obtain ⟨hnodup, hfresh⟩ := ih (p.key :: seen)
      rw [List.contains_iff_mem] at hp
      refine ⟨?_, List.forall_mem_cons.mpr ⟨hp, fun q hq hseen => ?_⟩⟩
      · rw [List.map_cons, List.nodup_cons]
        refine ⟨fun hmem => ?_, hnodup⟩
        obtain ⟨q, hq, hkey⟩ := List.mem_map.mp hmem
        exact hfresh q hq (hkey ▸ List.mem_cons_self)
      · exact hfresh q hq (List.mem_cons_of_mem _ hseen)

/-- **No two properties that are shown have one key.** -/
theorem nodup_keys_ofAnswers (own accessors : Option PropertiesAnswer) (showEnumerable : Bool) :
    ((ofAnswers own accessors showEnumerable).map key).Nodup := by
  unfold ofAnswers
  split
  · refine ((List.mergeSort_perm _ _).map key).nodup_iff.mpr ?_
    exact (List.filter_sublist.map key).nodup (nodup_keys_firsts [] _).1
  · exact List.nodup_nil

theorem firsts_sublist (seen : List (Bool × String)) (ps : List Property) :
    (firsts seen ps).Sublist ps := by
  induction ps generalizing seen with
  | nil => exact .slnil
  | cons p rest ih =>
    unfold firsts
    split
    · exact (ih seen).cons p
    · exact (ih _).cons_cons p

/-- **A property stands for its name when it is the first one found under its key.** -/
theorem mem_firsts_iff {seen : List (Bool × String)} {ps : List Property} {p : Property} :
    p ∈ firsts seen ps ↔ p.key ∉ seen ∧ ps.find? (·.key == p.key) = some p := by
  induction ps generalizing seen with
  | nil => simp [firsts]
  | cons q rest ih =>
    unfold firsts
    rw [List.find?_cons]
    by_cases hkey : q.key = p.key
    · rw [hkey, BEq.rfl]
      by_cases hseen : p.key ∈ seen
      · rw [if_pos (List.contains_iff_mem.mpr hseen), ih]
        simp [hseen]
      · rw [if_neg (mt List.contains_iff_mem.mp hseen), List.mem_cons, ih]
        simp [hseen, eq_comm]
    · have hne : (q.key == p.key) = false := beq_false_of_ne hkey
      have hqp : p ≠ q := fun h => hkey (h ▸ rfl)
      rw [hne]
      by_cases hseen : q.key ∈ seen
      · rw [if_pos (List.contains_iff_mem.mpr hseen), ih]
      · rw [if_neg (mt List.contains_iff_mem.mp hseen), List.mem_cons, ih]
        simp [hqp, Ne.symm hkey]

/-! ## What is reported -/

/-- The first regular descriptor of a name that has a value, in the own properties and then in the
accessors. -/
def firstRegular? (own accessors : PropertiesAnswer) (name : String) : Option PropertyDescriptor :=
  (own.result ++ accessors.result).find? fun d => d.name == name && d.value.isSome

/-- The first internal slot of a name that has a value. -/
def firstInternal? (own accessors : PropertiesAnswer) (name : String) : Option InternalDescriptor :=
  (own.slots ++ accessors.slots).find? fun d => d.name == name && d.value.isSome

/-- **What two answers report**: of each name the first regular descriptor that has a value, and the
first internal slot. -/
inductive Reports (own accessors : PropertiesAnswer) : Property → Prop
  | regular {d : PropertyDescriptor} {value : RemoteObject} :
      firstRegular? own accessors d.name = some d → d.value = some value →
      Reports own accessors { name := d.name, value, enumerable := d.enumerable,
                              configurable := d.configurable, writable := d.writable.getD false }
  | internal {d : InternalDescriptor} {value : RemoteObject} :
      firstInternal? own accessors d.name = some d → d.value = some value →
      Reports own accessors { name := d.name, value, isInternal := true }

variable {own accessors : PropertiesAnswer} {p q : Property}

/-- All properties with a value in the order in which they are read. -/
def listed (own accessors : PropertiesAnswer) : List Property :=
  regular own ++ regular accessors ++ (internal own ++ internal accessors)

theorem key_ofDescriptor? {d : PropertyDescriptor} (h : ofDescriptor? d = some p) :
    p.key = (false, d.name) := by
  obtain ⟨value, -, rfl⟩ := Option.map_eq_some_iff.mp h
  rfl

theorem key_ofInternal? {d : InternalDescriptor} (h : ofInternal? d = some p) :
    p.key = (true, d.name) := by
  obtain ⟨value, -, rfl⟩ := Option.map_eq_some_iff.mp h
  rfl

/-- Under a key, a descriptor is found by its name and its value if it is of the kind of the key. -/
theorem find?_filterMap_key {δ : Type} {f : δ → Option Property} {kind : Bool} {named : δ → String}
    {valued : δ → Bool} (hkey : ∀ d p, f d = some p → p.key = (kind, named d))
    (hvalued : ∀ d, (f d).isSome = valued d) (ds : List δ) (k : Bool) (name : String) :
    (ds.filterMap f).find? (·.key == (k, name)) =
      if k = kind then (ds.find? fun d => named d == name && valued d).bind f else none := by
  rw [List.find?_filterMap]
  split
  · next hk =>
    congr 2
    funext d
    rw [← hvalued]
    cases hd : f d with
    | none => simp
    | some p => simp [hkey d p hd, hk]
  · next hk =>
    refine Option.bind_eq_none_iff.mpr fun d hd => absurd (List.find?_some hd) ?_
    cases hp : f d with
    | none => simp
    | some p => simp [hkey d p hp, Ne.symm hk]

theorem find?_filterMap_ofDescriptor? (ds : List PropertyDescriptor) (k : Bool) (name : String) :
    (ds.filterMap ofDescriptor?).find? (·.key == (k, name)) =
      if k = false then (ds.find? fun d => d.name == name && d.value.isSome).bind ofDescriptor?
      else none :=
  find?_filterMap_key (fun _ _ => key_ofDescriptor?) (fun _ => Option.isSome_map) ds k name

theorem find?_filterMap_ofInternal? (ds : List InternalDescriptor) (k : Bool) (name : String) :
    (ds.filterMap ofInternal?).find? (·.key == (k, name)) =
      if k = true then (ds.find? fun d => d.name == name && d.value.isSome).bind ofInternal?
      else none :=
  find?_filterMap_key (fun _ _ => key_ofInternal?) (fun _ => Option.isSome_map) ds k name

/-- **A name is looked up among the descriptors of its kind.** -/
theorem find?_listed (own accessors : PropertiesAnswer) (k : Bool) (name : String) :
    (listed own accessors).find? (·.key == (k, name)) =
      if k then (firstInternal? own accessors name).bind ofInternal?
      else (firstRegular? own accessors name).bind ofDescriptor? := by
  rw [listed, regular, regular, internal, internal, ← List.filterMap_append,
    ← List.filterMap_append, List.find?_append, find?_filterMap_ofDescriptor?,
    find?_filterMap_ofInternal?]
  cases k with
  | false => exact Option.or_none
  | true => rfl

/-- **What is first under its key is what is reported.** -/
theorem mem_firsts_listed_iff : p ∈ firsts [] (listed own accessors) ↔ Reports own accessors p := by
  rw [mem_firsts_iff, find?_listed, key]
  simp only [List.not_mem_nil, not_false_eq_true, true_and]
  constructor
  · intro h
    split at h
    · next hinternal =>
      obtain ⟨d, hd, hp⟩ := Option.bind_eq_some_iff.mp h
      obtain ⟨value, hvalue, rfl⟩ := Option.map_eq_some_iff.mp hp
      exact .internal hd hvalue
    · next hregular =>
      obtain ⟨d, hd, hp⟩ := Option.bind_eq_some_iff.mp h
      obtain ⟨value, hvalue, rfl⟩ := Option.map_eq_some_iff.mp hp
      exact .regular hd hvalue
  · rintro (⟨hd, hvalue⟩ | ⟨hd, hvalue⟩)
    · rw [if_neg Bool.false_ne_true, hd, Option.bind_some, ofDescriptor?, hvalue, Option.map_some]
    · rw [if_pos rfl, hd, Option.bind_some, ofInternal?, hvalue, Option.map_some]

/-- **What is reported is shown if nothing hides it.** -/
theorem mem_merge_iff {showEnumerable : Bool} :
    p ∈ merge own accessors showEnumerable ↔
      Reports own accessors p ∧ isShown showEnumerable p = true := by
  rw [merge, List.mem_mergeSort, List.mem_filter]
  exact and_congr_left' mem_firsts_listed_iff

/-! ## The display order -/

/-- A text starts another one. -/
def Starts (start name : String) : Prop := start.toList <+: name.toList

instance (start name : String) : Decidable (Starts start name) :=
  inferInstanceAs (Decidable (start.toList <+: name.toList))

/-- **The classes of the display order**: plain names, names with two underscores in front, symbols,
and internal slots with names in two brackets. -/
inductive HasClass (p : Property) : Nat → Prop
  | plain : p.isInternal = false → ¬ Starts "__" p.name → ¬ Starts "Symbol(" p.name →
      ¬ Starts "[[" p.name → HasClass p 0
  | underscored : p.isInternal = false → Starts "__" p.name → HasClass p 1
  | symbol : p.isInternal = false → Starts "Symbol(" p.name → HasClass p 2
  | internal : p.isInternal = true → HasClass p 3
  | bracketed : Starts "[[" p.name → HasClass p 3

/-- **The display order**: by class, then by the bytes of the name, and a regular property before an
internal slot of its name. -/
def Before (p q : Property) : Prop :=
  ∃ j k, p.HasClass j ∧ q.HasClass k ∧ (j < k ∨ j = k ∧ (Text.bytes p.name < Text.bytes q.name ∨
    p.name = q.name ∧ p.isInternal = false ∧ q.isInternal = true))

theorem startsWith_iff {start name : String} : startsWith name start = true ↔ Starts start name :=
  List.isPrefixOf_iff_prefix

/-- No name starts in two ways. -/
theorem not_starts_of_head {start start' name : String} {c d : Char} {cs ds : List Char}
    (hs : start.toList = c :: cs) (hs' : start'.toList = d :: ds) (hne : c ≠ d)
    (h : Starts start name) : ¬ Starts start' name := by
  intro h'
  rw [Starts, hs] at h
  rw [Starts, hs'] at h'
  obtain ⟨rest, hrest⟩ := h
  obtain ⟨rest', hrest'⟩ := h'
  rw [← hrest'] at hrest
  exact hne (List.cons.inj hrest).1

/-- **The rank of a property is its only class.** -/
theorem hasClass_iff {k : Nat} : p.HasClass k ↔ p.rank = k := by
  have hsymbol : Starts "Symbol(" p.name → ¬ Starts "[[" p.name :=
    not_starts_of_head rfl rfl (by decide)
  have hunder : Starts "__" p.name → ¬ Starts "[[" p.name :=
    not_starts_of_head rfl rfl (by decide)
  have hunder' : Starts "__" p.name → ¬ Starts "Symbol(" p.name :=
    not_starts_of_head rfl rfl (by decide)
  unfold rank rankOf
  simp only [Bool.or_eq_true, startsWith_iff]
  constructor
  · rintro (⟨hi, hu, hs, hb⟩ | ⟨hi, hu⟩ | ⟨hi, hs⟩ | hi | hb)
    · rw [if_neg (by simp [hi, hb]), if_neg hs, if_neg hu]
    · rw [if_neg (by simp [hi, hunder hu]), if_neg (hunder' hu), if_pos hu]
    · rw [if_neg (by simp [hi, hsymbol hs]), if_pos hs]
    · rw [if_pos (.inl hi)]
    · rw [if_pos (.inr hb)]
  · rintro rfl
    split
    · next h => exact h.elim .internal .bracketed
    · next h =>
      obtain ⟨hi, hb⟩ := not_or.mp h
      rw [Bool.not_eq_true] at hi
      split
      · next hs => exact .symbol hi hs
      · next hs =>
        split
        · next hu => exact .underscored hi hu
        · next hu => exact .plain hi hu hs hb

/-- Class, name and kind of a property: the display order compares them one after the other. -/
def orderKey (p : Property) : ℕ ×ₗ String ×ₗ Bool := toLex (p.rank, toLex (p.name, p.isInternal))

theorem before_iff : Before p q ↔ orderKey p < orderKey q := by
  simp only [Before, hasClass_iff, Text.bytes_lt_iff, orderKey, Prod.Lex.toLex_lt_toLex,
    Bool.lt_iff]
  exact ⟨fun ⟨j, k, hj, hk, h⟩ => by subst hj hk; exact h, fun h => ⟨_, _, rfl, rfl, h⟩⟩

/-- What the sort compares: class and name. -/
def sortKey (p : Property) : ℕ ×ₗ String := toLex (p.rank, p.name)

theorem le_eq_decide : le = fun p q => decide (sortKey p ≤ sortKey q) := by
  funext p q
  rw [Bool.eq_iff_iff, decide_eq_true_iff, le, compare, Ordering.isLE_then_iff_or,
    Nat.compare_eq_lt, Nat.compare_eq_eq, sortKey, sortKey, Prod.Lex.toLex_le_toLex]
  exact or_congr_right (and_congr_right' Std.LawfulBCmp.isLE_iff_le)

/-- Regular properties are read before internal slots. -/
theorem pairwise_listed (own accessors : PropertiesAnswer) :
    (listed own accessors).Pairwise fun p q => p.isInternal = true → q.isInternal = true := by
  have hregular (ds : List PropertyDescriptor) :
      ∀ p ∈ ds.filterMap ofDescriptor?, p.isInternal = false := fun p hp => by
    obtain ⟨d, -, hd⟩ := List.mem_filterMap.mp hp
    exact congrArg Prod.fst (key_ofDescriptor? hd)
  have hinternal (ds : List InternalDescriptor) :
      ∀ p ∈ ds.filterMap ofInternal?, p.isInternal = true := fun p hp => by
    obtain ⟨d, -, hd⟩ := List.mem_filterMap.mp hp
    exact congrArg Prod.fst (key_ofInternal? hd)
  rw [listed, regular, regular, internal, internal, ← List.filterMap_append,
    ← List.filterMap_append]
  refine List.pairwise_append.mpr ⟨?_, ?_, fun p _ q hq _ => hinternal _ q hq⟩
  · exact List.pairwise_of_forall_mem_list fun p hp q hq h =>
      absurd (hregular _ p hp) (by simp [h])
  · exact List.pairwise_of_forall_mem_list fun p _ q hq _ => hinternal _ q hq

/-- **The properties stand in the display order.** -/
theorem pairwise_merge (own accessors : PropertiesAnswer) (showEnumerable : Bool) :
    (merge own accessors showEnumerable).Pairwise Before := by
  have hkeys : (firsts [] (listed own accessors)).Pairwise fun p q => p.key ≠ q.key :=
    List.pairwise_map.mp (nodup_keys_firsts [] _).1
  have hkinds := (pairwise_listed own accessors).sublist (firsts_sublist [] _)
  have hkept := (hkeys.and hkinds).filter (isShown showEnumerable)
  have hsorted := Keyed.pairwise_mergeSort_of_pairwise sortKey hkept
  rw [← le_eq_decide] at hsorted
  refine hsorted.imp fun {p q} h => before_iff.mpr ?_
  simp only [sortKey, orderKey, Prod.Lex.toLex_lt_toLex, EmbeddingLike.apply_eq_iff_eq,
    Prod.mk.injEq, Bool.lt_iff] at h ⊢
  obtain (hrank | ⟨hrank, hname⟩) | ⟨⟨hrank, hname⟩, hne, hkind⟩ := h
  · exact .inl hrank
  · exact .inr ⟨hrank, .inl hname⟩
  · -- the sort kept the order of the two, so the regular one is in front
    have hdiff : p.isInternal ≠ q.isInternal := fun h => hne (Prod.ext h hname)
    refine .inr ⟨hrank, .inr ⟨hname, ?_⟩⟩
    cases hp : p.isInternal with
    | false => exact ⟨rfl, by simpa [hp] using hdiff.symm⟩
    | true => exact absurd (hp.trans (hkind hp).symm) hdiff

/-- **Two lists in the display order with the same members are one.** -/
theorem eq_of_before {ps qs : List Property} (hps : ps.Pairwise Before) (hqs : qs.Pairwise Before)
    (h : ∀ p, p ∈ ps ↔ p ∈ qs) : ps = qs :=
  Keyed.eq_of_mem_iff (hps.imp before_iff.mp) (hqs.imp before_iff.mp) h

/-! ## What is shown -/

/-- **Properties are hidden from the list of all of them.** -/
theorem merge_false (own accessors : PropertiesAnswer) :
    merge own accessors false =
      (merge own accessors true).filter fun p => p.enumerable || p.isInternal := by
  refine eq_of_before (pairwise_merge own accessors false)
    ((pairwise_merge own accessors true).filter _) fun p => ?_
  rw [List.mem_filter, mem_merge_iff, mem_merge_iff]
  simp [isShown]

/-- **The properties that are shown are exactly the visible ones.**  There are none if a query fails.
Of two answers, what is reported is shown if it is a slot, enumerable, or if everything is.  No two
properties have one key, and they stand in the display order.  What is shown when not everything is
are the slots and the enumerable properties of the list of all. -/
theorem ofAnswers_visible (own accessors : Option PropertiesAnswer) (showEnumerable : Bool) :
    (own = none ∨ accessors = none → ofAnswers own accessors showEnumerable = []) ∧
    (∀ o a, own = some o → accessors = some a → ∀ p,
      p ∈ ofAnswers own accessors showEnumerable ↔
        Reports o a p ∧ (p.isInternal = true ∨ p.enumerable = true ∨ showEnumerable = true)) ∧
    ((ofAnswers own accessors showEnumerable).map key).Nodup ∧
    (ofAnswers own accessors showEnumerable).Pairwise Before ∧
    ofAnswers own accessors false =
      (ofAnswers own accessors true).filter fun p => p.enumerable || p.isInternal := by
  refine ⟨?_, ?_, nodup_keys_ofAnswers own accessors showEnumerable, ?_⟩
  · rintro (rfl | rfl)
    · rfl
    · cases own <;> rfl
  · rintro o a rfl rfl p
    rw [ofAnswers, mem_merge_iff]
    simp only [isShown, Bool.or_eq_true, or_comm, or_left_comm]
  · cases own with
    | none => exact ⟨.nil, rfl⟩
    | some o =>
      cases accessors with
      | none => exact ⟨.nil, rfl⟩
      | some a => exact ⟨pairwise_merge o a showEnumerable, merge_false o a⟩

end Property

end ConsoleLens
