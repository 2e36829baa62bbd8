import ConsoleLens.Proofs.Property.Shown
import Mathlib.Data.List.Nodup

/-!
# Proofs/Property/Reordered — the order in which an answer reports does not show

The first descriptor of a name is the only one in a list whose names are distinct, wherever it
stands (`find?_eq_some_iff_mem`).  A name may well be in several of the four lists of two answers;
which list counts is not a matter of the order inside one.  So answers that are reordered list by
list report the same, and since the properties stand in the display order, **the same properties
are shown in the same places** (`ofAnswers_reordered`).
-/

namespace ConsoleLens

/-! ## Items of distinct names -/

section Named

variable {δ : Type} {named : δ → String} {valued : δ → Bool} {ds ds' : List δ} {name : String}

/-- **Among distinct names, what is found under a name is what has it.** -/
theorem find?_eq_some_iff_mem (h : (ds.map named).Nodup) {d : δ} :
    ds.find? (fun d => named d == name && valued d) = some d ↔
      d ∈ ds ∧ named d = name ∧ valued d = true := by
  constructor
  · intro hd
    exact ⟨List.mem_of_find?_eq_some hd, by simpa using List.find?_some hd⟩
  · rintro ⟨hd, hname, hvalue⟩
    have hsome : (ds.find? fun d => named d == name && valued d).isSome :=
      List.find?_isSome.mpr ⟨d, hd, by simp [hname, hvalue]⟩
    obtain ⟨d', hd'⟩ := Option.isSome_iff_exists.mp hsome
    have hfound : named d' = name ∧ valued d' = true := by simpa using List.find?_some hd'
    rw [hd', List.inj_on_of_nodup_map h (List.mem_of_find?_eq_some hd') hd
      (hfound.1.trans hname.symm)]

/-- What is found under a name does not depend on the order of distinct names. -/
theorem find?_eq_of_perm (h : (ds.map named).Nodup) (hperm : ds.Perm ds') :
    ds.find? (fun d => named d == name && valued d) =
      ds'.find? fun d => named d == name && valued d := by
  have h' : (ds'.map named).Nodup := (hperm.map named).nodup_iff.mp h
  refine Option.ext fun d => ?_
  rw [find?_eq_some_iff_mem h, find?_eq_some_iff_mem h', hperm.mem_iff]

end Named

/-! ## Reordered answers -/

namespace PropertiesAnswer

/-- **Names are distinct in each list of an answer**, though one may be in both. -/
structure NamesDistinct (a : PropertiesAnswer) : Prop where
  result : (a.result.map (·.name)).Nodup
  slots : (a.slots.map (·.name)).Nodup

/-- **Each list of an answer is reported in another order.** -/
structure Reordered (a a' : PropertiesAnswer) : Prop where
  result : a.result.Perm a'.result
  slots : a.slots.Perm a'.slots

end PropertiesAnswer

namespace Property

open PropertiesAnswer

variable {own own' accessors accessors' : PropertiesAnswer}

theorem firstRegular?_reordered (hown : own.NamesDistinct) (haccessors : accessors.NamesDistinct)
    (h : own.Reordered own') (h' : accessors.Reordered accessors') (name : String) :
    firstRegular? own accessors name = firstRegular? own' accessors' name := by
  rw [firstRegular?, firstRegular?, List.find?_append, List.find?_append,
    find?_eq_of_perm hown.result h.result, find?_eq_of_perm haccessors.result h'.result]

theorem firstInternal?_reordered (hown : own.NamesDistinct) (haccessors : accessors.NamesDistinct)
    (h : own.Reordered own') (h' : accessors.Reordered accessors') (name : String) :
    firstInternal? own accessors name = firstInternal? own' accessors' name := by
  rw [firstInternal?, firstInternal?, List.find?_append, List.find?_append,
    find?_eq_of_perm hown.slots h.slots, find?_eq_of_perm haccessors.slots h'.slots]

/-- What two answers report is known by the first descriptors of each name. -/
theorem Reports.of_firsts (hregular : firstRegular? own accessors = firstRegular? own' accessors')
    (hinternal : firstInternal? own accessors = firstInternal? own' accessors') {p : Property}
    (h : Reports own accessors p) : Reports own' accessors' p := by
  cases h with
  | regular hd hvalue => exact .regular (hregular ▸ hd) hvalue
  | internal hd hvalue => exact .internal (hinternal ▸ hd) hvalue

/-- **The order in which an answer reports does not show.**  If names are distinct in each list of
two answers and each list is reported in another order, the same properties are shown in the same
order. -/
theorem ofAnswers_reordered (hown : own.NamesDistinct) (haccessors : accessors.NamesDistinct)
    (h : own.Reordered own') (h' : accessors.Reordered accessors') (showEnumerable : Bool) :
    ofAnswers (some own) (some accessors) showEnumerable =
      ofAnswers (some own') (some accessors') showEnumerable := by
  have hregular : firstRegular? own accessors = firstRegular? own' accessors' :=
    funext (firstRegular?_reordered hown haccessors h h')
  have hinternal : firstInternal? own accessors = firstInternal? own' accessors' :=
    funext (firstInternal?_reordered hown haccessors h h')
  rw [ofAnswers, ofAnswers]
  refine eq_of_before (pairwise_merge own accessors showEnumerable)
    (pairwise_merge own' accessors' showEnumerable) fun p => ?_
  rw [mem_merge_iff, mem_merge_iff]
  exact and_congr_left' ⟨.of_firsts hregular hinternal, .of_firsts hregular.symm hinternal.symm⟩

/-- The own properties of an object and its slots; its `b` is an accessor. -/
def ownAnswer : PropertiesAnswer where
  result := [{ name := "b" }, { name := "a", value := some { kind := .undefined } }]
  internalProperties := some [{ name := "b", value := some { kind := .undefined } },
    { name := "a", value := some { kind := .undefined } }]

/-- What is reported of its accessors: both names with a value. -/
def accessorsAnswer : PropertiesAnswer where
  result := [{ name := "b", value := some { kind := .number }, enumerable := true },
    { name := "a", value := some { kind := .number }, enumerable := true }]

/-- The own `a` is hidden and stands for its name; the accessor `b` and both slots are shown, as they
are when each list is turned around. -/
theorem ofAnswers_reordered_ownAnswer :
    (ownAnswer.NamesDistinct ∧ accessorsAnswer.NamesDistinct) ∧
    ∃ own accessors, (ownAnswer.Reordered own ∧ accessorsAnswer.Reordered accessors) ∧
      own.result.map (·.name) = ["a", "b"] ∧ own.slots.map (·.name) = ["a", "b"] ∧
      accessors.result.map (·.name) = ["a", "b"] ∧
      ofAnswers (some ownAnswer) (some accessorsAnswer) false =
        ofAnswers (some own) (some accessors) false ∧
      (ofAnswers (some ownAnswer) (some accessorsAnswer) false).map key =
        [(false, "b"), (true, "a"), (true, "b")] := by
  have hown : ownAnswer.NamesDistinct := ⟨by decide, by decide⟩
  have haccessors : accessorsAnswer.NamesDistinct := ⟨by decide, by decide⟩
  have hturned : ownAnswer.Reordered ⟨ownAnswer.result.reverse, some ownAnswer.slots.reverse⟩ :=
    ⟨(List.reverse_perm _).symm, (List.reverse_perm _).symm⟩
  have hturned' : accessorsAnswer.Reordered ⟨accessorsAnswer.result.reverse, none⟩ :=
    ⟨(List.reverse_perm _).symm, .refl _⟩
  have hshown := ofAnswers_reordered hown haccessors hturned hturned' false
  refine ⟨⟨hown, haccessors⟩, _, _, ⟨hturned, hturned'⟩, rfl, rfl, rfl, hshown, ?_⟩
  -- turned around, what is shown comes in the display order
  rw [hshown, ofAnswers, merge, List.mergeSort_of_pairwise (by decide +kernel)]
  decide +kernel

end Property

end ConsoleLens
