import ConsoleLens.Tree.Query

/-!
# Proofs/Tree/Naming — what can be read back from an identity

Identities are put together from sources, which may hold anything, and numbers, which are digits
only.  **A text that ends in digits after a separator can be taken apart from its end**
(`append_cons_inj_of_notMem_right`), so a place is read back from its text (`Position.text_inj`) and
a number from what it was put behind (`entryId_inj`), whatever the source looks like.

The names of properties may hold anything as well, their separator included: **a property's identity
is read back from names that do not** (`propertyId_inj`), and from others it is not.
-/

namespace ConsoleLens

/-! ## Numbers and separators -/

/-- A list is cut at its last separator in one way. -/
theorem append_cons_inj_of_notMem_right {α : Type} {x y a b : List α} {c : α} (ha : c ∉ a)
    (hb : c ∉ b) (h : x ++ c :: a = y ++ c :: b) : x = y ∧ a = b := by
  rcases List.append_eq_append_iff.mp h with ⟨m, hy, hm⟩ | ⟨m, hx, hm⟩
  · cases m with
    | nil =>
      rw [List.append_nil] at hy
      exact ⟨hy.symm, List.tail_eq_of_cons_eq hm⟩
    | cons d m =>
      obtain ⟨-, rfl⟩ := List.cons.inj hm
      exact absurd (List.mem_append_right m List.mem_cons_self) ha
  · cases m with
    | nil =>
      rw [List.append_nil] at hx
      exact ⟨hx, (List.tail_eq_of_cons_eq hm).symm⟩
    | cons d m =>
      obtain ⟨-, rfl⟩ := List.cons.inj hm
      exact absurd (List.mem_append_right m List.mem_cons_self) hb

/-- A list is cut at its last separator of two in one way. -/
theorem append_cons_cons_inj {α : Type} {x y a b : List α} {c d : α} (hcd : d ≠ c)
    (ha : ¬ [c, d] <:+: a) (hb : ¬ [c, d] <:+: b) (h : x ++ c :: d :: a = y ++ c :: d :: b) :
    x = y ∧ a = b := by
  -- the longer one of the two ends in nothing, in half a separator or in a whole one
  have hcut {u v w : List α} (hw : ¬ [c, d] <:+: w) (hm : c :: d :: w = u ++ c :: d :: v) :
      u = [] ∧ w = v := by
    match u with
    | [] => exact ⟨rfl, List.tail_eq_of_cons_eq (List.tail_eq_of_cons_eq hm)⟩
    | [_] => exact absurd (List.head_eq_of_cons_eq (List.tail_eq_of_cons_eq hm)) hcd
    | _ :: _ :: u =>
      have hheld : w = u ++ c :: d :: v := List.tail_eq_of_cons_eq (List.tail_eq_of_cons_eq hm)
      exact absurd ⟨u, v, by simp [hheld]⟩ hw
  rcases List.append_eq_append_iff.mp h with ⟨m, rfl, hm⟩ | ⟨m, rfl, hm⟩
  · obtain ⟨rfl, hab⟩ := hcut ha hm
    exact ⟨(List.append_nil x).symm, hab⟩
  · obtain ⟨rfl, hba⟩ := hcut hb hm
    exact ⟨List.append_nil y, hba.symm⟩

/-- A number is known by its digits. -/
theorem toDigits_inj {m n : Nat} : Nat.toDigits 10 m = Nat.toDigits 10 n ↔ m = n := by
  refine ⟨fun h => ?_, fun h => h ▸ rfl⟩
  rw [← Nat.ofDigitChars_toDigits (b := 10) (n := m) (by decide) (by decide), h,
    Nat.ofDigitChars_toDigits (by decide) (by decide)]

/-- What is no digit does not occur in a number. -/
theorem notMem_toDigits {c : Char} (hc : c.isDigit = false) (n : Nat) :
    c ∉ Nat.toDigits 10 n := fun h =>
  absurd (Nat.isDigit_of_mem_toDigits (by decide) (by decide) h) (by simp [hc])

/-- A list that ends in a number after a separator ends in nothing else. -/
theorem append_cons_toDigits_ne {x y : List Char} {c d : Char} (n : Nat) (hcd : d ≠ c)
    (hd : d.isDigit = false) : x ++ c :: Nat.toDigits 10 n ≠ y ++ [d] := by
  intro h
  have hlast : (c :: Nat.toDigits 10 n).getLast? = some d := by
    simpa [List.getLast?_append] using congrArg List.getLast? h
  rcases List.mem_cons.mp (List.mem_of_getLast? hlast) with hc | hdigit
  · exact hcd hc
  · exact notMem_toDigits hd n hdigit

/-! ## Places and entries -/

theorem Position.toList_text (p : Position) :
    p.text.toList = (p.source.toList ++ ':' :: Nat.toDigits 10 p.line) ++
      ':' :: Nat.toDigits 10 p.column := by
  simp [Position.text, Position.location]

/-- **A place is read back from its text**, also when the source holds colons and digits. -/
theorem Position.text_inj {p q : Position} : p.text = q.text ↔ p = q := by
  refine ⟨fun h => ?_, fun h => h ▸ rfl⟩
  have hcolon : ∀ n, ':' ∉ Nat.toDigits 10 n := notMem_toDigits rfl
  rw [← String.toList_inj, Position.toList_text, Position.toList_text] at h
  obtain ⟨hloc, hcolumn⟩ := append_cons_inj_of_notMem_right (hcolon _) (hcolon _) h
  obtain ⟨hsource, hline⟩ := append_cons_inj_of_notMem_right (hcolon _) (hcolon _) hloc
  obtain ⟨line, column, source⟩ := p
  rw [toDigits_inj] at hcolumn hline
  rw [String.toList_inj] at hsource
  subst hcolumn hline hsource
  rfl

theorem LogEntry.key_inj {e e' : LogEntry} :
    e.key = e'.key ↔ e.originalPosition = e'.originalPosition := Position.text_inj

namespace LogTree

theorem toList_entryId (key : String) (n : Nat) :
    (entryId key n).toList = (key.toList ++ '[' :: Nat.toDigits 10 n) ++ [']'] := by
  simp [entryId]

/-- **A number is read back from what it was put behind.** -/
theorem entryId_inj {key key' : String} {n n' : Nat} :
    entryId key n = entryId key' n' ↔ key = key' ∧ n = n' := by
  refine ⟨fun h => ?_, fun h => h.1 ▸ h.2 ▸ rfl⟩
  have hbracket : ∀ n, '[' ∉ Nat.toDigits 10 n := notMem_toDigits rfl
  rw [← String.toList_inj, toList_entryId, toList_entryId, List.append_cancel_right_eq] at h
  obtain ⟨hkey, hn⟩ := append_cons_inj_of_notMem_right (hbracket _) (hbracket _) h
  exact ⟨String.toList_inj.mp hkey, toDigits_inj.mp hn⟩

/-- No place is followed by a number in brackets. -/
theorem key_ne_entryId (e : LogEntry) (key : String) (n : Nat) : e.key ≠ entryId key n := by
  intro h
  rw [← String.toList_inj, LogEntry.key, Position.toList_text, toList_entryId] at h
  exact append_cons_toDigits_ne e.originalPosition.column (by decide) rfl h

/-! ## Properties -/

/-- **A name in which no other may begin**: it does not hold what a name is put behind. -/
def IsPlain (name : String) : Prop := ¬ ['[', '\''] <:+: name.toList

instance (name : String) : Decidable (IsPlain name) :=
  inferInstanceAs (Decidable (¬ ['[', '\''] <:+: name.toList))

theorem toList_propertyId (parent name : String) :
    (propertyId parent name).toList
      = ((parent.toList ++ '[' :: '\'' :: name.toList) ++ ['\'']) ++ [']'] := by
  simp [propertyId]

/-- **A plain name is read back from what it was put behind.** -/
theorem propertyId_inj {parent parent' name name' : String} (h : IsPlain name)
    (h' : IsPlain name') :
    propertyId parent name = propertyId parent' name' ↔ parent = parent' ∧ name = name' := by
  refine ⟨fun heq => ?_, fun heq => heq.1 ▸ heq.2 ▸ rfl⟩
  rw [← String.toList_inj, toList_propertyId, toList_propertyId, List.append_cancel_right_eq,
    List.append_cancel_right_eq] at heq
  obtain ⟨hparent, hname⟩ := append_cons_cons_inj (by decide) h h' heq
  exact ⟨String.toList_inj.mp hparent, String.toList_inj.mp hname⟩

/-- A number in brackets is not a name in quotes. -/
theorem entryId_ne_propertyId (key parent name : String) (n : Nat) :
    entryId key n ≠ propertyId parent name := by
  intro h
  rw [← String.toList_inj, toList_entryId, toList_propertyId, List.append_cancel_right_eq] at h
  exact append_cons_toDigits_ne n (by decide) rfl h

end LogTree

end ConsoleLens
