import Mathlib.Data.List.Basic
import Mathlib.Order.MinMax

/-!
# Proofs/Keyed — lists whose items have a key

Two lists are **alike** under a key when each key has the same items in both, in the same order;
how items of different keys stand to each other does not count.  A sort by the key makes a list
into one that is alike (`alike_mergeSort`): it keeps the order of equals.  Where no keys are equal, a
sorted list is known by its members (`eq_of_mem_iff`).

`nearest` is the last item of the greatest key up to a bound.  **It is the same in alike lists**
(`Alike.nearest_eq`), and in a sorted list it is the last item before the first that is past the
bound (`nearest_of_sorted`).
-/

namespace ConsoleLens.Keyed

variable {α β κ : Type} [LinearOrder κ] {key : α → κ} {l l' : List α}

/-! ## Alike lists -/

/-- **Each key has the same items in both lists**, in the same order. -/
def Alike (key : α → κ) (l l' : List α) : Prop :=
  ∀ k, l.filter (key · = k) = l'.filter (key · = k)

namespace Alike

theorem refl (key : α → κ) (l : List α) : Alike key l l := fun _ => rfl

theorem trans {l'' : List α} (h : Alike key l l') (h' : Alike key l' l'') : Alike key l l'' :=
  fun k => (h k).trans (h' k)

theorem append {m m' : List α} (h : Alike key l l') (h' : Alike key m m') :
    Alike key (l ++ m) (l' ++ m') := fun k => by
  rw [List.filter_append, List.filter_append, h k, h' k]

/-- What takes equal keys to equal keys and different ones to different ones keeps lists alike. -/
theorem map {key' : β → κ} {f : α → β} (hf : ∀ a b, key' (f a) = key' (f b) ↔ key a = key b)
    (h : Alike key l l') : Alike key' (l.map f) (l'.map f) := by
  intro k
  rw [List.filter_map, List.filter_map]
  by_cases hk : ∃ a, key' (f a) = k
  · obtain ⟨a, rfl⟩ := hk
    have hsame : (fun b => decide (key' b = key' (f a))) ∘ f = fun b => decide (key b = key a) := by
      funext b
      simp only [Function.comp_apply, hf]
    rw [hsame, h (key a)]
  · have hnone (m : List α) : m.filter ((fun b => decide (key' b = k)) ∘ f) = [] := by
      refine List.filter_eq_nil_iff.mpr fun a _ => ?_
      simpa using fun ha => hk ⟨a, ha⟩
    rw [hnone, hnone]

theorem mem_iff (h : Alike key l l') (a : α) : a ∈ l ↔ a ∈ l' := by
  have hrun (m : List α) : a ∈ m ↔ a ∈ m.filter (key · = key a) := by simp
  rw [hrun l, hrun l', h (key a)]

end Alike

/-! ## Sorting -/

theorem pairwise_mergeSort (key : α → κ) (l : List α) :
    (l.mergeSort fun a b => key a ≤ key b).Pairwise (key · ≤ key ·) := by
  refine (List.pairwise_mergeSort (fun a b c hab hbc => ?_) (fun a b => ?_) l).imp of_decide_eq_true
  · exact decide_eq_true ((of_decide_eq_true hab).trans (of_decide_eq_true hbc))
  · simpa using le_total (key a) (key b)

/-- **A sort by the key keeps the order of equals.** -/
theorem alike_mergeSort (key : α → κ) (l : List α) :
    Alike key (l.mergeSort fun a b => key a ≤ key b) l := by
  intro k
  have hequal : (l.filter (key · = k)).Pairwise fun a b => decide (key a ≤ key b) := by
    refine List.pairwise_of_forall_mem_list fun a ha b hb => ?_
    have ha : key a = k := by simpa using (List.mem_filter.mp ha).2
    have hb : key b = k := by simpa using (List.mem_filter.mp hb).2
    simp [ha, hb]
  have hsub : (l.filter (key · = k)).Sublist (l.mergeSort fun a b => key a ≤ key b) :=
    List.sublist_mergeSort
      (fun a b c hab hbc => decide_eq_true ((of_decide_eq_true hab).trans (of_decide_eq_true hbc)))
      (fun a b => by simpa using le_total (key a) (key b)) hequal List.filter_sublist
  have hsub := hsub.filter (key · = k)
  rw [List.filter_filter] at hsub
  simp only [Bool.and_self] at hsub
  refine (hsub.eq_of_length ?_).symm
  exact ((List.mergeSort_perm l _).filter _).length_eq.symm

/-- In a sorted list, equal keys stand as they stood before. -/
theorem pairwise_mergeSort_of_pairwise {R : α → α → Prop} (key : α → κ) (h : l.Pairwise R) :
    (l.mergeSort fun a b => key a ≤ key b).Pairwise fun a b =>
      key a < key b ∨ key a = key b ∧ R a b := by
  refine List.pairwise_iff_forall_sublist.mpr fun {a b} hab => ?_
  have hle : key a ≤ key b := List.pairwise_iff_forall_sublist.mp (pairwise_mergeSort key l) hab
  refine hle.lt_or_eq.imp_right fun heq => ⟨heq, ?_⟩
  have hrun := hab.filter (key · = key b)
  rw [alike_mergeSort key l (key b)] at hrun
  simp only [List.filter_cons, heq, decide_true, if_true, List.filter_nil] at hrun
  exact List.pairwise_iff_forall_sublist.mp h (hrun.trans List.filter_sublist)

/-- **A list with ascending keys is known by its members.** -/
theorem eq_of_mem_iff (h : l.Pairwise (key · < key ·)) (h' : l'.Pairwise (key · < key ·))
    (hmem : ∀ a, a ∈ l ↔ a ∈ l') : l = l' := by
  have hnodup {m : List α} (hm : m.Pairwise (key · < key ·)) : m.Nodup :=
    hm.imp fun hlt heq => hlt.ne (congrArg key heq)
  have hperm : l.Perm l' := (List.perm_ext_iff_of_nodup (hnodup h) (hnodup h')).mpr hmem
  exact hperm.eq_of_pairwise (fun a b _ _ hab hba => absurd hab hba.asymm) h h'

/-! ## The nearest item -/

/-- **The last of the items whose key is the greatest up to a bound.** -/
def nearest (key : α → κ) (bound : κ) (l : List α) : Option α :=
  let kept := l.filter (key · ≤ bound)
  (kept.map key).max?.bind fun top => (kept.filter (key · = top)).getLast?

theorem nearest_eq_some_iff {bound : κ} {a : α} :
    nearest key bound l = some a ↔
      key a ≤ bound ∧ (∀ b ∈ l, key b ≤ bound → key b ≤ key a) ∧
        (l.filter (key · = key a)).getLast? = some a := by
  have hrun {top : κ} (htop : top ≤ bound) :
      (l.filter (key · ≤ bound)).filter (key · = top) = l.filter (key · = top) := by
    rw [List.filter_filter]
    refine List.filter_congr fun b _ => ?_
    by_cases hb : key b = top <;> simp [hb, htop]
  have hmax {top : κ} : ((l.filter (key · ≤ bound)).map key).max? = some top ↔
      (∃ b ∈ l, key b ≤ bound ∧ key b = top) ∧ ∀ b ∈ l, key b ≤ bound → key b ≤ top := by
    rw [List.max?_eq_some_iff]
    refine and_congr (by simp [and_assoc]) ?_
    simp only [List.forall_mem_map, List.mem_filter, decide_eq_true_eq, and_imp]
  rw [nearest, Option.bind_eq_some_iff]
  constructor
  · rintro ⟨top, htop, hlast⟩
    obtain ⟨⟨b, -, hb, rfl⟩, hall⟩ := hmax.mp htop
    rw [hrun hb] at hlast
    have ha : key a = key b := by
      simpa using (List.mem_filter.mp (List.mem_of_getLast? hlast)).2
    rw [ha]
    exact ⟨hb, hall, hlast⟩
  · rintro ⟨ha, hall, hlast⟩
    have hmem : a ∈ l := (List.mem_filter.mp (List.mem_of_getLast? hlast)).1
    exact ⟨key a, hmax.mpr ⟨⟨a, hmem, ha, rfl⟩, hall⟩, by rw [hrun ha, hlast]⟩

/-- Where every key is past the bound, no item is nearest. -/
theorem nearest_eq_none {bound : κ} (h : ∀ a ∈ l, bound < key a) : nearest key bound l = none := by
  refine Option.eq_none_iff_forall_ne_some.mpr fun a ha => ?_
  obtain ⟨hle, -, hlast⟩ := nearest_eq_some_iff.mp ha
  exact absurd hle (h a (List.mem_filter.mp (List.mem_of_getLast? hlast)).1).not_ge

/-- **Alike lists have the same nearest item.** -/
theorem Alike.nearest_eq (h : Alike key l l') (bound : κ) :
    nearest key bound l = nearest key bound l' := by
  refine Option.ext fun a => ?_
  rw [nearest_eq_some_iff, nearest_eq_some_iff, h (key a)]
  simp only [h.mem_iff]

theorem takeWhile_eq_filter_of_sorted (h : l.Pairwise (key · ≤ key ·)) (bound : κ) :
    l.takeWhile (key · ≤ bound) = l.filter (key · ≤ bound) := by
  induction l with
  | nil => rfl
  | cons a rest ih =>
    obtain ⟨ha, hrest⟩ := List.pairwise_cons.mp h
    by_cases hle : key a ≤ bound
    · simp [hle, ih hrest]
    · have hpast : ∀ b ∈ rest, ¬ key b ≤ bound := fun b hb hb' => hle ((ha b hb).trans hb')
      simp only [hle, decide_false, Bool.false_eq_true, not_false_eq_true,
        List.takeWhile_cons_of_neg, List.filter_cons_of_neg]
      exact (List.filter_eq_nil_iff.mpr fun b hb => by simpa using hpast b hb).symm

/-- **In a sorted list, the nearest item stands right before the first that is past the bound.** -/
theorem nearest_of_sorted (h : l.Pairwise (key · ≤ key ·)) (bound : κ) :
    nearest key bound l = (l.takeWhile (key · ≤ bound)).getLast? := by
  rw [takeWhile_eq_filter_of_sorted h, nearest]
  have hkept := h.filter (key · ≤ bound)
  generalize l.filter (key · ≤ bound) = kept at hkept
  rcases List.eq_nil_or_concat kept with rfl | ⟨init, a, rfl⟩
  · rfl
  · rw [List.concat_eq_append] at hkept ⊢
    have hinit : ∀ b ∈ init, key b ≤ key a := by simpa using (List.pairwise_append.mp hkept).2.2
    have htop : ((init ++ [a]).map key).max? = some (key a) := by
      refine List.max?_eq_some_iff.mpr ⟨by simp, fun k hk => ?_⟩
      obtain ⟨b, hb, rfl⟩ := List.mem_map.mp hk
      rcases List.mem_append.mp hb with hb | hb
      · exact hinit b hb
      · rw [List.mem_singleton.mp hb]
    rw [htop, Option.bind_some, List.filter_append]
    simp

/-- The nearest item of images is the image of the nearest item. -/
theorem nearest_map (key' : β → κ) (f : α → β) (bound : κ) (l : List α) :
    nearest key' bound (l.map f) = (nearest (key' ∘ f) bound l).map f := by
  simp only [nearest, List.filter_map, List.map_map, Function.comp_def]
  cases ((l.filter fun a => key' (f a) ≤ bound).map fun a => key' (f a)).max? with
  | none => rfl
  | some top => exact List.getLast?_map

/-- Another key that orders the items in the same way, up to another bound, has the same nearest
item. -/
theorem nearest_congr {κ' : Type} [LinearOrder κ'] {key' : α → κ'} {bound : κ} {bound' : κ'}
    (hbound : ∀ a ∈ l, key' a ≤ bound' ↔ key a ≤ bound)
    (hkey : ∀ a ∈ l, ∀ b ∈ l, key' a ≤ key' b ↔ key a ≤ key b) :
    nearest key' bound' l = nearest key bound l := by
  have hrun {a : α} (ha : a ∈ l) :
      l.filter (fun b => decide (key' b = key' a)) =
        l.filter (fun b => decide (key b = key a)) := by
    refine List.filter_congr fun b hb => decide_eq_decide.mpr ?_
    rw [le_antisymm_iff, le_antisymm_iff, hkey b hb a ha, hkey a ha b hb]
  refine Option.ext fun a => ?_
  rw [nearest_eq_some_iff, nearest_eq_some_iff]
  by_cases ha : a ∈ l
  · rw [hbound a ha, hrun ha]
    refine and_congr_right fun _ => and_congr_left fun _ => forall₂_congr fun b hb => ?_
    rw [hbound b hb, hkey b hb a ha]
  · refine iff_of_false (fun h => ha ?_) (fun h => ha ?_)
    all_goals exact (List.mem_filter.mp (List.mem_of_getLast? h.2.2)).1

end ConsoleLens.Keyed
