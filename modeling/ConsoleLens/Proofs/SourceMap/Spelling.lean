import ConsoleLens.Proofs.SourceMap.Digits

/-!
# Proofs/SourceMap/Spelling — what a group means, and the shortest group that means it

A group means what it spells, halved, with a minus if that is odd.  Thirteen digits spell 65 bits
and a word has 64, the highest of which is its sign, so

    the number that is read  =  the number that is meant    ⟺    spelled g < 2 ^ 63

and **a group that spells more is read as another number, not refused** (`exactOrRefused_iff`):
only a fourteenth digit is.  A number may be spelled in many ways, with idle digits in front of the
last one, with a minus before nothing, or with bits that the word loses; `encode_shortest` says that
**the group that is written is the shortest of all that are read as its number**, and that writing
it comes to an end within thirteen rounds on words.
-/

namespace ConsoleLens.Vlq

/-! ## What a group means -/

/-- **The number that a group means**: what it spells, halved, and negated if that is odd. -/
def number (g : List Char) : Int :=
  if spelled g % 2 = 1 then -((spelled g / 2 : Nat) : Int) else ((spelled g / 2 : Nat) : Int)

/-- A number has room in a word. -/
def Fits (n : Int) : Prop := -2 ^ 63 ≤ n ∧ n < 2 ^ 63

instance (n : Int) : Decidable (Fits n) := inferInstanceAs (Decidable (_ ∧ _))

/-- **A text is read exactly or refused**: the numbers that are read are those that its groups mean,
however long these are, and a group that means more than a word holds is an overflow. -/
def ExactOrRefused (segment : List Char) : Prop :=
  (∀ values (groups : List (List Char)), decode segment = .ok values →
    (∀ g ∈ groups, IsRun g) → segment = groups.flatten → values = groups.map number) ∧
  ∀ (before : List (List Char)) g rest, (∀ b ∈ before, IsRun b) → IsRun g →
    segment = before.flatten ++ g ++ rest → ¬ Fits (number g) → decode segment = .error .overflow

theorem number_eq (g : List Char) : number g = signed (spelled g : Int) := by
  unfold number signed
  split <;> split <;> omega

/-- A word holds a natural below 65 bits as it is, or without one or both of its highest bits. -/
theorem word_natCast_or {n : Nat} (h : n < 2 ^ 65) : n < 2 ^ 63 ∧ word (n : Int) = n ∨
    2 ^ 63 ≤ n ∧ (word (n : Int) = n - 2 ^ 64 ∨ word (n : Int) = n - 2 ^ 65) := by
  by_cases hlow : n < 2 ^ 63
  · exact .inl ⟨hlow, word_natCast hlow⟩
  · have hhalf : Nat.pow 2 64 = 2 ^ 64 := rfl
    refine .inr ⟨Nat.le_of_not_lt hlow, ?_⟩
    rw [word, hhalf, Int.bmod_def]
    split <;> omega

/-- **A number is read as it is meant exactly if its group leaves the highest bits free.** -/
theorem carried_eq_number_iff {g : List Char} (h : IsGroup g) :
    carried g = number g ↔ spelled g < 2 ^ 63 := by
  have hwidth : spelled g < 2 ^ 65 :=
    (spelled_lt g).trans_le ((Nat.pow_le_pow_right (by decide) h.2).trans (by decide))
  rw [number_eq, carried]
  rcases word_natCast_or hwidth with ⟨hlow, hword⟩ | ⟨hhigh, hword⟩
  · simp only [hword, hlow]
  · -- the parity stays, and half of what is lost is missing
    refine iff_of_false ?_ (Nat.not_lt.mpr hhigh)
    unfold signed
    rcases hword with hword | hword <;> rw [hword] <;> split <;> split <;> omega

/-! ## Groups that are too long -/

/-- **Digits that go on for too long are refused.** -/
theorem decode_long {g : List Char} (h : IsRun g) (hlong : 13 < g.length) (rest : List Char) :
    decode (g ++ rest) = .error .overflow := by
  obtain ⟨more, last, rfl, hmore, hlast⟩ := h
  rw [List.length_append, List.length_singleton] at hlong
  obtain ⟨c, after, hafter⟩ : ∃ c after, more.drop 13 ++ [last] = c :: after :=
    List.exists_cons_of_ne_nil (List.append_ne_nil_of_right_ne_nil _ (List.cons_ne_nil last []))
  have hcut : more ++ [last] = more.take 13 ++ c :: after := by
    rw [← hafter, ← List.append_assoc, List.take_append_drop]
  have hc : c ∈ alphabet := IsRun.mem_alphabet ⟨more, last, rfl, hmore, hlast⟩
    (hcut ▸ List.mem_append_right _ List.mem_cons_self)
  have hfull : (more.take 13).length = 13 := List.length_take_of_le (by omega)
  rw [hcut, List.append_assoc, List.cons_append,
    decode_fault (fun d hd => hmore d (List.mem_of_mem_take hd)) hfull.le (.inr hfull), faultOf,
    if_pos hc]

/-- Of digits that come to an end one after the other, all are groups, or one is too long. -/
theorem isGroup_or_overflow {groups : List (List Char)} (h : ∀ g ∈ groups, IsRun g) :
    (∀ g ∈ groups, IsGroup g) ∨ ∀ rest, decode (groups.flatten ++ rest) = .error .overflow := by
  induction groups with
  | nil => exact .inl (by simp)
  | cons g groups ih =>
    have hg : IsRun g := h g List.mem_cons_self
    by_cases hlong : 13 < g.length
    · refine .inr fun rest => ?_
      rw [List.flatten_cons, List.append_assoc, decode_long hg hlong]
    · have hgroup : IsGroup g := ⟨hg, Nat.le_of_not_lt hlong⟩
      rcases ih fun g' hg' => h g' (List.mem_cons_of_mem g hg') with hrest | hrest
      · exact .inl (List.forall_mem_cons.mpr ⟨hgroup, hrest⟩)
      · refine .inr fun rest => ?_
        rw [List.flatten_cons, List.append_assoc, decode_group hgroup, hrest]
        rfl

/-- An overflow behind groups is one behind nothing. -/
theorem decode_groups_eq_overflow_iff {groups : List (List Char)} (h : ∀ g ∈ groups, IsGroup g)
    (rest : List Char) : decode (groups.flatten ++ rest) = .error .overflow ↔
      decode rest = .error .overflow := by
  rw [decode_groups h]
  cases decode rest <;> simp [Except.map]

/-- **A text is read exactly or refused if and only if** no group of it spells a number that reaches
the sign of the word, and a group of thirteen digits at most that means too much stands in front of
nothing but an overflow.  The text of a segment that is read has groups, and no more than that
comes of it. -/
theorem exactOrRefused_iff (segment : List Char) : ExactOrRefused segment ↔
    (∀ groups, IsCut segment groups → ∀ g ∈ groups, spelled g < 2 ^ 63) ∧
    ∀ (before : List (List Char)) g rest, (∀ b ∈ before, IsGroup b) → IsGroup g →
      segment = before.flatten ++ g ++ rest → ¬ Fits (number g) →
        decode rest = .error .overflow := by
  constructor
  · rintro ⟨hexact, hrefused⟩
    refine ⟨fun groups hcut g hg => ?_, fun before g rest hbefore hg hsegment hfits => ?_⟩
    · have hrun : ∀ g ∈ groups, IsRun g := fun g hg => (hcut.isGroup g hg).1
      have hsame := hexact _ groups hcut.decode_eq hrun hcut.flatten
      exact (carried_eq_number_iff (hcut.isGroup g hg)).mp (List.map_inj_left.mp hsame g hg)
    · have hover := hrefused before g rest (fun b hb => (hbefore b hb).1) hg.1 hsegment hfits
      have hgroups : ∀ b ∈ before ++ [g], IsGroup b := by
        simpa using fun b hb => hb.elim (hbefore b) fun hb => hb ▸ hg
      rw [hsegment, ← List.flatten_concat] at hover
      exact (decode_groups_eq_overflow_iff hgroups rest).mp hover
  · rintro ⟨hlow, hwide⟩
    refine ⟨fun values groups hread hrun hsegment => ?_, ?_⟩
    · have hgroups : ∀ g ∈ groups, IsGroup g := by
        refine (isGroup_or_overflow hrun).resolve_right fun hover => ?_
        have hnil := hover []
        rw [List.append_nil, ← hsegment, hread] at hnil
        cases hnil
      have hcut : IsCut segment groups := ⟨hgroups, hsegment⟩
      obtain rfl := Except.ok.inj (hread.symm.trans hcut.decode_eq)
      exact List.map_congr_left fun g hg =>
        (carried_eq_number_iff (hgroups g hg)).mpr (hlow groups hcut g hg)
    · intro before g rest hbefore hg hsegment hfits
      have hrun : ∀ b ∈ before ++ [g], IsRun b := by
        simpa using fun b hb => hb.elim (hbefore b) fun hb => hb ▸ hg
      rw [hsegment, ← List.flatten_concat]
      rcases isGroup_or_overflow hrun with hgroups | hover
      · have hrest := hwide before g rest (fun b hb => hgroups b (List.mem_append_left _ hb))
          (hgroups g (List.mem_append_right _ List.mem_cons_self)) hsegment hfits
        exact (decode_groups_eq_overflow_iff hgroups rest).mpr hrest
      · exact hover rest

/-- **The highest bits are lost without an overflow.**  Thirteen digits that mean `2 ^ 62` are read
as `-2 ^ 62`, and thirteen that mean `2 ^ 63`, for which a word has no room, as zero. -/
theorem highBits_not_exactOrRefused :
    ¬ ExactOrRefused "ggggggggggggI".toList ∧ ¬ ExactOrRefused "ggggggggggggQ".toList := by
  have hrun {last : Char} (hlast : ends last) : IsRun (List.replicate 12 'g' ++ [last]) :=
    ⟨_, last, rfl, fun c hc => List.eq_of_mem_replicate hc ▸ (goesOn_digitOf (d := 0) (by decide)).1,
      hlast⟩
  constructor
  · rintro ⟨hexact, -⟩
    have hrunI : IsRun "ggggggggggggI".toList := hrun (ends_digitOf (d := 8) (by decide)).1
    have hread : decode "ggggggggggggI".toList = .ok [-2 ^ 62] := by decide +kernel
    have hsame := hexact _ [_] hread (by simpa using hrunI) (by simp)
    exact absurd hsame (by decide +kernel)
  · rintro ⟨-, hrefused⟩
    have hrunQ : IsRun "ggggggggggggQ".toList := hrun (ends_digitOf (d := 16) (by decide)).1
    have hread : decode "ggggggggggggQ".toList = .ok [0] := by decide +kernel
    have hover := hrefused [] _ [] (by simp) hrunQ (by simp) (by decide +kernel)
    rw [hread] at hover
    cases hover

/-! ## The shortest group -/

/-- The sign bit of a number that is spelled is no more than what spells it. -/
theorem withSign_signed_le (n : Nat) : withSign (signed (n : Int)) ≤ n := by
  unfold withSign signed
  split <;> split <;> omega

/-- **No group is shorter than the one that is written for its number.** -/
theorem length_encodeNumber_le {g : List Char} (h : IsGroup g) (hv : (carried g).natAbs < 2 ^ 62) :
    (encodeNumber (carried g)).length ≤ g.length := by
  have hpos : 0 < g.length := List.length_pos_iff.mpr h.1.ne_nil
  obtain ⟨k, hk⟩ : ∃ k, g.length = k + 1 := ⟨g.length - 1, by omega⟩
  rw [hk, encodeNumber_eq]
  refine length_groupOf_le ?_
  rcases Nat.lt_or_ge k 12 with hshort | hfull
  · -- twelve digits leave the highest bits free
    have hspelled : spelled g < 32 ^ (k + 1) := hk ▸ spelled_lt g
    have hlow : 32 ^ (k + 1) ≤ 32 ^ 12 := Nat.pow_le_pow_right (by decide) hshort
    rw [carried, word_natCast (by omega)]
    exact (withSign_signed_le _).trans_lt hspelled
  · exact (withSign_lt hv).trans_le
      ((show 2 ^ 63 ≤ 32 ^ 13 by decide).trans (Nat.pow_le_pow_right (by decide) (by omega)))

theorem length_encode_le {groups : List (List Char)} (h : ∀ g ∈ groups, IsGroup g)
    (hv : ∀ v ∈ groups.map carried, v.natAbs < 2 ^ 62) :
    (encode (groups.map carried)).length ≤ groups.flatten.length := by
  induction groups with
  | nil => exact Nat.le_refl 0
  | cons g groups ih =>
    rw [List.map_cons, List.forall_mem_cons] at hv
    have hg := length_encodeNumber_le (h g List.mem_cons_self) hv.1
    have hrest := ih (fun g' hg' => h g' (List.mem_cons_of_mem g hg')) hv.2
    rw [List.map_cons, encode, List.flatMap_cons, List.length_append, List.flatten_cons,
      List.length_append, ← encode]
    exact Nat.add_le_add hg hrest

/-! ## Writing on words -/

/-- A number above its sign bit in a word, which loses what does not go into it. -/
def packed (v : Int) : Int := if v < 0 then word (2 * word (-v)) + 1 else word (2 * v)

/-- **The digits of a word that is used up in so many rounds**, five bits in each.  A digit goes on
as long as what is left is positive. -/
def writeWord? : (rounds : Nat) → (w : Int) → Option (List Char)
  | 0, _ => none
  | rounds + 1, w =>
    let rest := w / 32
    let digit := (w % 32).toNat
    if 0 < rest then (writeWord? rounds rest).map (digitOf (digit + 32) :: ·)
    else if rest = 0 then some [digitOf digit]
    else (writeWord? rounds rest).map (digitOf digit :: ·)

/-- The digits of numbers, each of them written in so many rounds. -/
def writeWords? (rounds : Nat) (values : List Int) : Option (List Char) :=
  (values.mapM fun v => writeWord? rounds (packed v)).map List.flatten

theorem packed_eq {v : Int} (h : v.natAbs < 2 ^ 62) : packed v = withSign v := by
  have hword {n : Int} (hn : 0 ≤ n ∧ n < 2 ^ 63) : word n = n := by
    lift n to Nat using hn.1
    exact word_natCast (by omega)
  unfold packed withSign
  split
  · have hmagnitude : word (-v) = -v := hword (by omega)
    rw [hmagnitude, hword (by omega)]
    omega
  · rw [hword (by omega)]
    omega

/-- **A natural is used up in as many rounds as it has digits.** -/
theorem writeWord?_natCast {n : Nat} : ∀ {rounds : Nat}, n < 32 ^ (rounds + 1) →
    writeWord? (rounds + 1) n = some (groupOf n) := by
  induction n using groupOf.induct with
  | case1 n hn =>
    intro rounds _
    have hrest : (n : Int) / 32 = 0 := by omega
    have hdigit : ((n : Int) % 32).toNat = n := by omega
    rw [writeWord?, groupOf, if_pos hn]
    simp only [hrest, hdigit, lt_irrefl, if_false, if_true]
  | case2 n hn ih =>
    intro rounds hrounds
    have hrest : (n : Int) / 32 = (n / 32 : Nat) := by omega
    have hpos : (0 : Int) < (n / 32 : Nat) := by omega
    have hdigit : ((n : Int) % 32).toNat = n % 32 := by omega
    cases rounds with
    | zero => exact absurd hrounds hn
    | succ rounds =>
      have hlt : n / 32 < 32 ^ (rounds + 1) := Nat.div_lt_of_lt_mul (by rwa [← Nat.pow_succ'])
      rw [writeWord?, groupOf, if_neg hn]
      simp only [hrest, hdigit, hpos, if_true, ih hlt, Option.map_some]

theorem writeWords?_eq {values : List Int} (h : ∀ v ∈ values, v.natAbs < 2 ^ 62) :
    writeWords? 13 values = some (encode values) := by
  have hall : values.mapM (fun v => writeWord? 13 (packed v)) = some (values.map encodeNumber) := by
    induction values with
    | nil => rfl
    | cons v rest ih =>
      have hv := h v List.mem_cons_self
      have hroom : withSign v < 32 ^ 13 := (withSign_lt hv).trans (by decide)
      rw [List.mapM_cons, packed_eq hv, writeWord?_natCast hroom,
        ih fun w hw => h w (List.mem_cons_of_mem v hw)]
      rfl
  rw [writeWords?, hall, Option.map_some, encode, List.flatMap_def]

/-- **Writing is undone by reading, and nothing shorter is read as the same numbers.**  Below
`2 ^ 62` every number is written on words of 64 bits within thirteen rounds. -/
theorem encode_shortest {values : List Int} (h : ∀ v ∈ values, v.natAbs < 2 ^ 62) :
    writeWords? 13 values = some (encode values) ∧ decode (encode values) = .ok values ∧
      ∀ text, decode text = .ok values → (encode values).length ≤ text.length := by
  refine ⟨writeWords?_eq h, decode_encode_of_lt h, fun text hread => ?_⟩
  obtain ⟨groups, hcut⟩ := exists_isCut hread
  obtain rfl := Except.ok.inj (hread.symm.trans hcut.decode_eq)
  rw [hcut.flatten]
  exact length_encode_le hcut.isGroup h

/-- The greatest number that is written, nothing and a negative one; in the longer text the nothing
has a minus, and a digit that goes on stands idle before the end. -/
theorem encode_shortest_idleDigits :
    let values : List Int := [2 ^ 62 - 1, 0, -16]
    (∀ v ∈ values, v.natAbs < 2 ^ 62) ∧
    writeWords? 13 values = some "+///////////HAhB".toList ∧
    decode "+///////////HAhB".toList = .ok values ∧
    decode "+///////////HBhhA".toList = .ok values ∧
    "+///////////HAhB".toList.length ≤ "+///////////HBhhA".toList.length := by
  intro values
  have hvalues : ∀ v ∈ values, v.natAbs < 2 ^ 62 := by decide
  have hidle : decode "+///////////HBhhA".toList = .ok values := by decide +kernel
  obtain ⟨hwritten, hread, hshortest⟩ := encode_shortest hvalues
  have htext : encode values = "+///////////HAhB".toList := by decide +kernel
  rw [htext] at hwritten hread hshortest
  exact ⟨hvalues, hwritten, hread, hidle, hshortest _ hidle⟩

end ConsoleLens.Vlq
