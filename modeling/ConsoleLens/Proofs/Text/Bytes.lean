import Mathlib.Data.List.Lex
import Mathlib.Data.String.Basic

/-!
# Proofs/Text/Bytes — texts are ordered as their bytes are

In UTF-8 a character is its code, spread over a leading byte and up to three more bytes of six bits
each.  Of two codes that are spread alike, the less comes out less (`spread_lt`).  The leading bytes
of longer spreads are greater, so no bytes of one character start those of another, and **texts stand
in the order of their characters exactly when their bytes do** (`bytes_lt_iff`).
-/

namespace ConsoleLens.Text

/-! ## One character -/

/-- A code spread over a leading byte and `k` bytes of six bits each. -/
def spread (lead : Nat) : Nat → Nat → List Nat
  | 0, code => [lead + code]
  | k + 1, code => spread lead k (code / 64) ++ [128 + code % 64]

/-- The bytes of a code. -/
def codeBytes (code : Nat) : List Nat :=
  if code ≤ 127 then spread 0 0 code
  else if code ≤ 2047 then spread 192 1 code
  else if code ≤ 65535 then spread 224 2 code
  else spread 240 3 code

theorem map_toNat_utf8EncodeChar (c : Char) :
    (String.utf8EncodeChar c).map UInt8.toNat = codeBytes c.toNat := by
  have hc : c.val.toNat < 0x110000 := by
    rcases c.valid with h | h
    · omega
    · exact h.2
  rw [Char.toNat]
  unfold String.utf8EncodeChar codeBytes
  generalize c.val.toNat = code at hc
  dsimp only
  split_ifs
  all_goals
    simp only [spread, List.map_cons, List.map_nil, List.cons_append, List.nil_append,
      UInt8.toNat_ofNat', List.cons.injEq, and_true]
    omega

/-- **Of two codes that are spread alike, the less comes out less**, whatever follows. -/
theorem spread_lt {lead k v w : Nat} (h : v < w) (s t : List Nat) :
    spread lead k v ++ s < spread lead k w ++ t := by
  induction k generalizing v w s t with
  | zero => exact List.cons_lt_cons_iff.mpr (.inl (by omega))
  | succ k ih =>
    simp only [spread, List.append_assoc, List.singleton_append]
    rcases (Nat.div_le_div_right (c := 64) h.le).lt_or_eq with hdiv | hdiv
    · exact ih hdiv _ _
    · rw [hdiv]
      exact List.append_left_lt (List.cons_lt_cons_iff.mpr (.inl (by omega)))

theorem exists_spread_eq_cons (lead k code : Nat) :
    ∃ rest, spread lead k code = (lead + code / 64 ^ k) :: rest := by
  induction k generalizing code with
  | zero => exact ⟨[], by simp [spread]⟩
  | succ k ih =>
    obtain ⟨rest, hrest⟩ := ih (code / 64)
    refine ⟨rest ++ [128 + code % 64], ?_⟩
    rw [spread, hrest, Nat.div_div_eq_div_mul, ← Nat.pow_succ', List.cons_append]

/-- Codes that are spread differently are told apart by their leading bytes. -/
theorem spread_lt_of_lead {lead lead' k k' v w : Nat}
    (h : lead + v / 64 ^ k < lead' + w / 64 ^ k') (s t : List Nat) :
    spread lead k v ++ s < spread lead' k' w ++ t := by
  obtain ⟨rest, hrest⟩ := exists_spread_eq_cons lead k v
  obtain ⟨rest', hrest'⟩ := exists_spread_eq_cons lead' k' w
  rw [hrest, hrest']
  exact List.cons_lt_cons_iff.mpr (.inl h)

/-- **Less codes have less bytes**, whatever follows. -/
theorem codeBytes_lt {v w : Nat} (h : v < w) (s t : List Nat) :
    codeBytes v ++ s < codeBytes w ++ t := by
  unfold codeBytes
  split_ifs
  any_goals exact spread_lt h s t
  all_goals exact spread_lt_of_lead (by omega) s t

theorem codeBytes_ne_nil (code : Nat) : codeBytes code ≠ [] := by
  unfold codeBytes
  split_ifs <;> simp [spread]

/-! ## A text -/

/-- The bytes of a text in UTF-8. -/
def bytes (s : String) : List Nat := s.toUTF8.data.toList.map UInt8.toNat

theorem bytes_eq_flatMap (s : String) : bytes s = s.toList.flatMap fun c => codeBytes c.toNat := by
  rw [bytes, String.toUTF8_eq_toByteArray, ← String.utf8Encode_toList, List.utf8Encode,
    List.data_toByteArray, List.map_flatMap]
  exact congrArg (s.toList.flatMap ·) (funext map_toNat_utf8EncodeChar)

theorem flatMap_codeBytes_lt {l l' : List Char} (h : l < l') :
    (l.flatMap fun c => codeBytes c.toNat) < l'.flatMap fun c => codeBytes c.toNat := by
  induction l generalizing l' with
  | nil =>
    cases l' with
    | nil => cases h
    | cons d ds =>
      obtain ⟨first, rest, hd⟩ := List.exists_cons_of_ne_nil (codeBytes_ne_nil d.toNat)
      rw [List.flatMap_nil, List.flatMap_cons, hd]
      exact List.nil_lt_cons first _
  | cons c cs ih =>
    cases l' with
    | nil => cases h
    | cons d ds =>
      rw [List.flatMap_cons, List.flatMap_cons]
      rcases List.cons_lt_cons_iff.mp h with hlt | ⟨rfl, hlt⟩
      · exact codeBytes_lt hlt _ _
      · exact List.append_left_lt (ih hlt)

/-- **Texts are ordered as their bytes are.** -/
theorem bytes_lt_iff {s t : String} : bytes s < bytes t ↔ s < t := by
  refine StrictMono.lt_iff_lt (f := bytes) fun s t h => ?_
  rw [bytes_eq_flatMap, bytes_eq_flatMap]
  exact flatMap_codeBytes_lt (String.lt_iff_toList_lt.mp h)

end ConsoleLens.Text
