import ConsoleLens.Text.Digits
import Mathlib.Data.List.Basic

/-!
# Proofs/Text/Digits — runs of characters, and naturals among them

A run of characters of one kind is taken from the front of a text as far as it goes, so it is found
again in front of whatever does not go on with it (`takeWhile_append_of_stops`).

A natural is its last digit behind the digits of what is left, on both sides, so **the digits of a
natural are read as that natural** in every base up to sixteen (`natural?_toDigits`).
-/

namespace ConsoleLens

namespace Text

/-- A text does not go on with a character of a kind. -/
def Stops (p : Char → Bool) (rest : List Char) : Prop := ∀ c ∈ rest.head?, p c = false

variable {p : Char → Bool} {run rest : List Char}

theorem ne_of_kind {c d : Char} (hc : p c = true) (hd : p d = false) : c ≠ d := by
  rintro rfl
  exact absurd (hc.symm.trans hd) (by decide)

theorem stops_nil (p : Char → Bool) : Stops p [] := fun _ h => by cases h

theorem stops_cons {c : Char} : Stops p (c :: rest) ↔ p c = false := by simp [Stops]

theorem Stops.mono {q : Char → Bool} (h : Stops p rest) (hq : ∀ c, q c = true → p c = true) :
    Stops q rest := fun c hc => by
  have hp := h c hc
  by_contra hne
  rw [hq c (by simpa using hne)] at hp
  cases hp

theorem Stops.append (hrun : Stops p run) (hrest : Stops p rest) : Stops p (run ++ rest) := by
  cases run with
  | nil => exact hrest
  | cons c run => exact hrun

theorem takeWhile_of_stops (h : Stops p rest) : rest.takeWhile p = [] := by
  cases rest with
  | nil => rfl
  | cons c rest => rw [List.takeWhile_cons, stops_cons.mp h, if_neg (by decide)]

theorem dropWhile_of_stops (h : Stops p rest) : rest.dropWhile p = rest := by
  cases rest with
  | nil => rfl
  | cons c rest => rw [List.dropWhile_cons, stops_cons.mp h, if_neg (by decide)]

theorem takeWhile_append_of_stops (hrun : ∀ c ∈ run, p c = true) (h : Stops p rest) :
    (run ++ rest).takeWhile p = run := by
  rw [List.takeWhile_append_of_pos hrun, takeWhile_of_stops h, List.append_nil]

theorem dropWhile_append_of_stops (hrun : ∀ c ∈ run, p c = true) (h : Stops p rest) :
    (run ++ rest).dropWhile p = rest := by
  rw [List.dropWhile_append_of_pos hrun, dropWhile_of_stops h]

end Text

namespace Digits

theorem value?_digitChar {d : Nat} (h : d < 16) : value? (Nat.digitChar d) = some d := by
  have hall : ∀ d < 16, value? (Nat.digitChar d) = some d := by decide
  exact hall d h

theorem digit?_digitChar {base d : Nat} (hbase : base ≤ 16) (h : d < base) :
    digit? base (Nat.digitChar d) = some d := by
  rw [digit?, value?_digitChar (by omega), Option.filter_some, if_pos (decide_eq_true h)]

theorem natural?_of_ne_nil {base : Nat} {cs : List Char} (h : cs ≠ []) :
    natural? base cs = cs.foldlM (fun n c => (digit? base c).map (base * n + ·)) 0 := by
  cases cs with
  | nil => exact absurd rfl h
  | cons c cs => rfl

/-- One digit more. -/
theorem natural?_concat {base : Nat} {cs : List Char} (hcs : cs ≠ []) (c : Char) :
    natural? base (cs ++ [c]) =
      (natural? base cs).bind fun n => (digit? base c).map (base * n + ·) := by
  rw [natural?_of_ne_nil hcs, natural?_of_ne_nil (List.append_ne_nil_of_left_ne_nil hcs [c]),
    List.foldlM_append]
  simp [List.foldlM_cons]

/-- **The digits of a natural are read as it.** -/
theorem natural?_toDigits {base : Nat} (hone : 1 < base) (hbase : base ≤ 16) (n : Nat) :
    natural? base (Nat.toDigits base n) = some n := by
  induction n using Nat.strongRecOn with
  | ind n ih =>
    by_cases h : n < base
    · rw [Nat.toDigits_of_lt_base h]
      simp [natural?, digit?_digitChar hbase h]
    · have hle : base ≤ n := Nat.le_of_not_lt h
      have hlt : n / base < n := Nat.div_lt_self (by omega) hone
      have hmod : n % base < base := Nat.mod_lt n (by omega)
      rw [Nat.toDigits_of_base_le hone hle, natural?_concat Nat.toDigits_ne_nil, ih _ hlt,
        Option.bind_some, digit?_digitChar hbase hmod, Option.map_some, Nat.div_add_mod]

theorem decimal?_decimal (n : Nat) : decimal? (decimal n) = some n :=
  natural?_toDigits (by decide) (by decide) n

theorem isDecimal_of_mem_decimal {n : Nat} {c : Char} (h : c ∈ decimal n) : isDecimal c = true := by
  have hdigit := Nat.isDigit_of_mem_toDigits (by decide) (by decide) h
  simpa [isDecimal, Char.isDigit, Char.le_def, UInt32.le_iff_toNat_le, ge_iff_le] using hdigit

/-- No zero stands in front of other digits. -/
theorem decimal_eq_zero_or (n : Nat) : decimal n = ['0'] ∨ (decimal n).head? ≠ some '0' := by
  induction n using Nat.strongRecOn with
  | ind n ih =>
    by_cases h : n < 10
    · have hall : ∀ n < 10, decimal n = ['0'] ∨ (decimal n).head? ≠ some '0' := by decide
      exact hall n h
    · have hle : 10 ≤ n := Nat.le_of_not_lt h
      have hpos : decimal (n / 10) ≠ ['0'] := by
        intro hzero
        have hread := decimal?_decimal (n / 10)
        rw [hzero] at hread
        have : 0 = n / 10 := Option.some.inj hread
        omega
      rw [decimal, Nat.toDigits_of_base_le (by decide) hle, List.head?_append_of_ne_nil _
        Nat.toDigits_ne_nil]
      exact .inr ((ih (n / 10) (by omega)).resolve_left hpos)

end Digits

end ConsoleLens
