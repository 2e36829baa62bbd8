import ConsoleLens.Proofs.SourceMap.Group

/-!
# Proofs/SourceMap/Digits — the numbers of a segment, written and read back

A natural is written as a group that spells it (`spelled_groupOf`), with as many digits as it has
in base 32.  A number with its sign bit is a natural, so a segment that is written is cut into one
group for each number.

**`decode_encode_of_lt` says that a segment gives its numbers back**, as long as each of them, with
its sign bit, leaves room in the word.
-/

namespace ConsoleLens.Vlq

/-! ## Naturals -/

theorem ends_digitOf {d : Nat} (h : d < 32) : ends (digitOf d) ∧ lowBits (digitOf d) = d :=
  ⟨ends_iff.mpr ⟨d, h, rfl⟩, by rw [lowBits_digitOf (by omega), Nat.mod_eq_of_lt h]⟩

theorem goesOn_digitOf {d : Nat} (h : d < 32) :
    goesOn (digitOf (d + 32)) ∧ lowBits (digitOf (d + 32)) = d :=
  ⟨goesOn_iff.mpr ⟨d, h, congrArg digitOf (Nat.add_comm 32 d)⟩,
    by rw [lowBits_digitOf (by omega), Nat.add_mod_right, Nat.mod_eq_of_lt h]⟩

theorem isRun_groupOf (n : Nat) : IsRun (groupOf n) := by
  induction n using groupOf.induct with
  | case1 n hn =>
    rw [groupOf, if_pos hn]
    exact ⟨[], digitOf n, rfl, by simp, (ends_digitOf hn).1⟩
  | case2 n hn ih =>
    obtain ⟨more, last, hgroup, hmore, hlast⟩ := ih
    rw [groupOf, if_neg hn, hgroup]
    refine ⟨_ :: more, last, rfl, List.forall_mem_cons.mpr ⟨?_, hmore⟩, hlast⟩
    exact (goesOn_digitOf (Nat.mod_lt n (by decide))).1

/-- **The group of a natural spells it.** -/
theorem spelled_groupOf (n : Nat) : spelled (groupOf n) = n := by
  induction n using groupOf.induct with
  | case1 n hn =>
    rw [groupOf, if_pos hn, spelled_cons, (ends_digitOf hn).2]
    rfl
  | case2 n hn ih =>
    rw [groupOf, if_neg hn, spelled_cons, ih, (goesOn_digitOf (Nat.mod_lt n (by decide))).2]
    exact Nat.mod_add_div n 32

/-- A natural has no more digits than it takes. -/
theorem length_groupOf_le {n : Nat} : ∀ {k : Nat}, n < 32 ^ (k + 1) →
    (groupOf n).length ≤ k + 1 := by
  induction n using groupOf.induct with
  | case1 n hn =>
    intro k _
    rw [groupOf, if_pos hn]
    exact Nat.succ_le_succ (Nat.zero_le k)
  | case2 n hn ih =>
    intro k hk
    cases k with
    | zero => exact absurd hk hn
    | succ k =>
      rw [groupOf, if_neg hn, List.length_cons]
      exact Nat.succ_le_succ (ih (Nat.div_lt_of_lt_mul (by rwa [← Nat.pow_succ'])))

/-- A number that is not negative and leaves the highest bit free is its own word. -/
theorem word_natCast {n : Nat} (h : n < 2 ^ 63) : word (n : Int) = n := by
  have hhalf : Nat.pow 2 64 = 2 ^ 64 := rfl
  rw [word, hhalf]
  exact Int.bmod_eq_of_le (by omega) (by omega)

theorem isGroup_groupOf {n : Nat} (h : n < 2 ^ 63) : IsGroup (groupOf n) :=
  ⟨isRun_groupOf n, length_groupOf_le (by omega)⟩

/-! ## Numbers -/

/-- The magnitude of a number above its sign bit. -/
def withSign (v : Int) : Nat := if v < 0 then 2 * v.natAbs + 1 else 2 * v.natAbs

theorem encodeNumber_eq (v : Int) : encodeNumber v = groupOf (withSign v) := rfl

theorem withSign_lt {v : Int} (h : v.natAbs < 2 ^ 62) : withSign v < 2 ^ 63 := by
  unfold withSign
  split <;> omega

/-- **The sign bit tells the numbers apart.** -/
theorem signed_withSign (v : Int) : signed (withSign v : Int) = v := by
  unfold withSign
  split
  · rw [signed, if_pos (by omega)]
    omega
  · rw [signed, if_neg (by omega)]
    omega

theorem carried_encodeNumber {v : Int} (h : v.natAbs < 2 ^ 62) : carried (encodeNumber v) = v := by
  rw [carried, encodeNumber_eq, spelled_groupOf, word_natCast (withSign_lt h), signed_withSign]

/-- What is written is cut into the groups of its numbers. -/
theorem isCut_encode {values : List Int} (h : ∀ v ∈ values, v.natAbs < 2 ^ 62) :
    IsCut (encode values) (values.map encodeNumber) where
  isGroup g hg := by
    obtain ⟨v, hv, rfl⟩ := List.mem_map.mp hg
    exact isGroup_groupOf (withSign_lt (h v hv))
  flatten := List.flatMap_def

/-- **A segment gives its numbers back.** -/
theorem decode_encode_of_lt {values : List Int} (h : ∀ v ∈ values, v.natAbs < 2 ^ 62) :
    decode (encode values) = .ok values := by
  have hsame : values.map (carried ∘ encodeNumber) = values.map id :=
    List.map_congr_left fun v hv => by rw [Function.comp_apply, carried_encodeNumber (h v hv), id]
  rw [(isCut_encode h).decode_eq, List.map_map, hsame, List.map_id]

/-! ## The characters of a segment -/

theorem IsRun.mem_alphabet {g : List Char} (h : IsRun g) {c : Char} (hc : c ∈ g) :
    c ∈ alphabet := by
  obtain ⟨more, last, rfl, hmore, hlast⟩ := h
  rcases List.mem_append.mp hc with hc | hc
  · exact mem_alphabet_iff.mpr (.inl (hmore c hc))
  · exact mem_alphabet_iff.mpr (.inr (List.mem_singleton.mp hc ▸ hlast))

theorem IsRun.ne_nil {g : List Char} (h : IsRun g) : g ≠ [] := by
  obtain ⟨more, last, rfl, -, -⟩ := h
  exact List.append_ne_nil_of_right_ne_nil more (List.cons_ne_nil last [])

/-- **A segment holds nothing but digits.** -/
theorem digitValue?_of_mem_encode {c : Char} {values : List Int} (hc : c ∈ encode values) :
    (digitValue? c).isSome := by
  obtain ⟨v, -, hv⟩ := List.mem_flatMap.mp hc
  have hmem : c ∈ alphabet := (isRun_groupOf (withSign v)).mem_alphabet hv
  rcases mem_alphabet_iff.mp hmem with h | h
  · rw [digitValue?_of_goesOn h]
    rfl
  · rw [digitValue?_of_ends h]
    rfl

/-- A segment of one number or more is not empty. -/
theorem encode_ne_nil {values : List Int} (h : values ≠ []) : encode values ≠ [] := by
  obtain ⟨v, rest, rfl⟩ := List.exists_cons_of_ne_nil h
  rw [encode, List.flatMap_cons]
  exact List.append_ne_nil_of_left_ne_nil (isRun_groupOf (withSign v)).ne_nil _

end ConsoleLens.Vlq
