import ConsoleLens.SourceMap.Vlq
import Mathlib.Data.List.DropRight
import Mathlib.Data.List.GetD
import Mathlib.Data.List.Nodup
import Mathlib.Data.Nat.Digits.Defs

/-!
# Proofs/SourceMap/Group — a segment is made of groups, or its first fault is told

    group  =  at most twelve digits that go on  ++  one digit that ends it

The digit that ends a group says where the next one starts, so a text is cut from the left, and
whatever is read of it depends on nothing but the number of digits that are open.  A text has a
**fault** where a character is no digit or the fourteenth of its group.  Three things can happen
(`Faultless.cut`, `faultless_or_first`):

    groups                            the numbers of the groups
    groups ++ open digits             broken off
    groups ++ open digits ++ c …      the fault of c

`decode_verdict` says that **decoding tells them apart**, whatever follows the first fault.
-/

namespace ConsoleLens.Vlq

/-! ## The alphabet -/

/-- A digit after which its group goes on. -/
def goesOn (c : Char) : Bool := c ∈ alphabet.drop 32

/-- A digit that ends its group. -/
def ends (c : Char) : Bool := c ∈ alphabet.take 32

/-- The five bits that a digit gives to its number. -/
def lowBits (c : Char) : Nat := alphabet.idxOf c % 32

variable {c : Char}

theorem lowBits_lt (c : Char) : lowBits c < 32 := Nat.mod_lt _ (by decide)

theorem mem_alphabet_iff : c ∈ alphabet ↔ goesOn c ∨ ends c := by
  rw [← List.take_append_drop 32 alphabet, List.mem_append, or_comm, goesOn, ends,
    decide_eq_true_eq, decide_eq_true_eq]

/-- **The alphabet lists the digits by their values.** -/
theorem map_digitValue?_alphabet : alphabet.map digitValue? = (List.range 64).map some := by
  decide +kernel

theorem length_alphabet : alphabet.length = 64 := by
  simpa using congrArg List.length map_digitValue?_alphabet

theorem nodup_alphabet : alphabet.Nodup := by
  refine List.Nodup.of_map digitValue? ?_
  rw [map_digitValue?_alphabet]
  exact List.nodup_range.map (Option.some_injective Nat)

theorem digitOf_eq {n : Nat} (h : n < alphabet.length) : digitOf n = alphabet[n] :=
  List.getD_eq_getElem alphabet 'A' h

theorem digitValue?_digitOf {n : Nat} (h : n < 64) : digitValue? (digitOf n) = some n := by
  have hn : n < alphabet.length := length_alphabet.symm ▸ h
  have hvalue := congrArg (·[n]?) map_digitValue?_alphabet
  simpa [digitOf_eq hn, hn, h] using hvalue

theorem lowBits_digitOf {n : Nat} (h : n < 64) : lowBits (digitOf n) = n % 32 := by
  have hn : n < alphabet.length := length_alphabet.symm ▸ h
  rw [lowBits, digitOf_eq hn, nodup_alphabet.idxOf_getElem]

theorem ends_iff : ends c ↔ ∃ n < 32, digitOf n = c := by
  have hlength := length_alphabet
  rw [ends, decide_eq_true_eq, List.mem_take_iff_getElem]
  constructor
  · rintro ⟨n, hn, rfl⟩
    exact ⟨n, by omega, digitOf_eq _⟩
  · rintro ⟨n, hn, rfl⟩
    exact ⟨n, by omega, (digitOf_eq _).symm⟩

theorem goesOn_iff : goesOn c ↔ ∃ n < 32, digitOf (32 + n) = c := by
  have hlength := length_alphabet
  rw [goesOn, decide_eq_true_eq, List.mem_drop_iff_getElem]
  constructor
  · rintro ⟨n, hn, rfl⟩
    exact ⟨n, by omega, digitOf_eq _⟩
  · rintro ⟨n, hn, rfl⟩
    exact ⟨n, by omega, (digitOf_eq _).symm⟩

theorem digitValue?_of_goesOn (h : goesOn c) : digitValue? c = some (lowBits c + 32) := by
  obtain ⟨n, hn, rfl⟩ := goesOn_iff.mp h
  rw [digitValue?_digitOf (by omega), lowBits_digitOf (by omega), Nat.add_mod_left,
    Nat.mod_eq_of_lt hn, Nat.add_comm]

theorem digitValue?_of_ends (h : ends c) : digitValue? c = some (lowBits c) := by
  obtain ⟨n, hn, rfl⟩ := ends_iff.mp h
  rw [digitValue?_digitOf (by omega), lowBits_digitOf (by omega), Nat.mod_eq_of_lt hn]

theorem not_goesOn_of_ends (h : ends c) : ¬ goesOn c := by
  intro hgoes
  have hsame := (digitValue?_of_goesOn hgoes).symm.trans (digitValue?_of_ends h)
  simp at hsame

/-- The codes of the digits. -/
def codes : List Nat := List.range' 65 26 ++ List.range' 97 26 ++ List.range' 48 10 ++ [43, 47]

theorem alphabet_eq : alphabet = codes.map Char.ofNat := by decide +kernel

theorem mem_alphabet_of_code (h : c.toNat ∈ codes) : c ∈ alphabet := by
  rw [alphabet_eq]
  exact List.mem_map.mpr ⟨c.toNat, h, Char.ofNat_toNat c⟩

theorem mem_codes_iff {n : Nat} : n ∈ codes ↔
    65 ≤ n ∧ n ≤ 90 ∨ 97 ≤ n ∧ n ≤ 122 ∨ 48 ≤ n ∧ n ≤ 57 ∨ n = 43 ∨ n = 47 := by
  simp only [codes, List.mem_append, List.mem_range'_1, List.mem_cons, List.not_mem_nil, or_false,
    or_assoc]
  omega

/-- **A character that is no digit has no value.** -/
theorem digitValue?_of_notMem (h : c ∉ alphabet) : digitValue? c = none := by
  have hcode : c.toNat ∉ codes := fun hc => h (mem_alphabet_of_code hc)
  simp only [mem_codes_iff, not_or] at hcode
  obtain ⟨hupper, hlower, hdecimal, hplus, hslash⟩ := hcode
  refine (if_neg hupper).trans ((if_neg hlower).trans ((if_neg hdecimal).trans ?_))
  rw [if_neg fun hc => hplus (congrArg Char.toNat hc),
    if_neg fun hc => hslash (congrArg Char.toNat hc)]

/-! ## One character -/

variable {value : Int} {shift : Nat}

theorem decodeFrom_of_notMem (h : c ∉ alphabet) (value : Int) (shift : Nat) (rest : List Char) :
    decodeFrom value shift (c :: rest) = .error (.invalidDigit c) := by
  rw [decodeFrom, digitValue?_of_notMem h]

theorem decodeFrom_of_full (h : c ∈ alphabet) (hshift : 60 < shift) (value : Int)
    (rest : List Char) : decodeFrom value shift (c :: rest) = .error .overflow := by
  obtain ⟨d, hd⟩ : ∃ d, digitValue? c = some d := (mem_alphabet_iff.mp h).elim
    (fun h => ⟨_, digitValue?_of_goesOn h⟩) fun h => ⟨_, digitValue?_of_ends h⟩
  rw [decodeFrom, hd]
  exact if_pos hshift

/-- A digit that goes on puts its bits above those that are there. -/
theorem decodeFrom_of_goesOn (h : goesOn c) (hshift : shift ≤ 60) (value : Int)
    (rest : List Char) : decodeFrom value shift (c :: rest) =
      decodeFrom (word (value + word ((lowBits c * 2 ^ shift : Nat) : Int))) (shift + 5) rest := by
  have hlow : (lowBits c + 32) % 32 = lowBits c := by
    rw [Nat.add_mod_right, Nat.mod_eq_of_lt (lowBits_lt c)]
  have hmore : ¬ lowBits c + 32 < 32 := by omega
  rw [decodeFrom, digitValue?_of_goesOn h]
  simp only [hlow, hmore, if_false, if_neg (Nat.not_lt.mpr hshift)]
  rfl

/-- The digit that ends a group does so, too, and the number is there. -/
theorem decodeFrom_of_ends (h : ends c) (hshift : shift ≤ 60) (value : Int) (rest : List Char) :
    decodeFrom value shift (c :: rest) = (decodeFrom 0 0 rest).map
      (signed (word (value + word ((lowBits c * 2 ^ shift : Nat) : Int))) :: ·) := by
  have hlow : lowBits c % 32 = lowBits c := Nat.mod_eq_of_lt (lowBits_lt c)
  rw [decodeFrom, digitValue?_of_ends h]
  simp only [hlow, lowBits_lt c, if_true, if_neg (Nat.not_lt.mpr hshift)]
  rfl

/-! ## One group -/

/-- Digits that go on and one that ends them, however many they are. -/
def IsRun (g : List Char) : Prop :=
  ∃ more last, g = more ++ [last] ∧ (∀ c ∈ more, goesOn c) ∧ ends last

/-- **A group**: at most twelve digits that go on and one that ends it. -/
def IsGroup (g : List Char) : Prop := IsRun g ∧ g.length ≤ 13

/-- **What digits spell**: five bits each, the lowest ones first. -/
def spelled (ds : List Char) : Nat := Nat.ofDigits 32 (ds.map lowBits)

/-- The number that a word holds of a group. -/
def carried (g : List Char) : Int := signed (word (spelled g))

theorem spelled_cons (c : Char) (ds : List Char) :
    spelled (c :: ds) = lowBits c + 32 * spelled ds := Nat.ofDigits_cons

theorem spelled_append (xs ys : List Char) :
    spelled (xs ++ ys) = spelled xs + 32 ^ xs.length * spelled ys := by
  rw [spelled, List.map_append, Nat.ofDigits_append, List.length_map, spelled, spelled]

theorem spelled_lt (ds : List Char) : spelled ds < 32 ^ ds.length := by
  have hlow : ∀ d ∈ ds.map lowBits, d < 32 := by
    intro d hd
    obtain ⟨c, -, rfl⟩ := List.mem_map.mp hd
    exact lowBits_lt c
  simpa [spelled] using Nat.ofDigits_lt_base_pow_length (by decide) hlow

/-- Words are added as what they hold is. -/
theorem word_word_add (a b : Nat) : word (word a + word b) = word ((a + b : Nat) : Int) := by
  rw [word, word, word, word, Int.bmod_add_bmod, Int.add_bmod_bmod, Int.natCast_add]

/-- The bits of a digit stand above those of the digits before it. -/
theorem two_pow_mul (k : Nat) : 2 ^ (5 * k) = 32 ^ k := Nat.pow_mul 2 5 k

/-- **Open digits are added up.** -/
theorem decodeFrom_open (rest : List Char) : ∀ {more : List Char} {n k : Nat},
    (∀ c ∈ more, goesOn c) → k + more.length ≤ 13 →
      decodeFrom (word n) (5 * k) (more ++ rest) =
        decodeFrom (word ((n + 32 ^ k * spelled more : Nat) : Int)) (5 * (k + more.length)) rest
  | [], n, k, _, _ => by simp [spelled]
  | c :: more, n, k, hgoes, hk => by
      rw [List.length_cons] at hk
      have hc : goesOn c := hgoes c List.mem_cons_self
      have hmore : ∀ d ∈ more, goesOn d := fun d hd => hgoes d (List.mem_cons_of_mem c hd)
      have hsum : n + lowBits c * 2 ^ (5 * k) + 32 ^ (k + 1) * spelled more =
          n + 32 ^ k * spelled (c :: more) := by
        rw [spelled_cons, two_pow_mul]
        ring
      rw [List.cons_append, decodeFrom_of_goesOn hc (by omega), word_word_add, ← Nat.mul_succ,
        decodeFrom_open rest hmore (by omega), hsum, List.length_cons]
      congr 2
      omega

/-- **A group is read as the number that its word holds**, and what follows it starts afresh. -/
theorem decode_group {g : List Char} (h : IsGroup g) (rest : List Char) :
    decode (g ++ rest) = (decode rest).map (carried g :: ·) := by
  obtain ⟨⟨more, last, rfl, hmore, hlast⟩, hlength⟩ := h
  rw [List.length_append, List.length_singleton] at hlength
  have hopen := decodeFrom_open (last :: rest) (n := 0) (k := 0) hmore (by omega)
  have hsum : spelled more + lowBits last * 2 ^ (5 * more.length) = spelled (more ++ [last]) := by
    rw [spelled_append, two_pow_mul, Nat.mul_comm, spelled_cons]
    rfl
  simp only [Nat.zero_add, pow_zero, Nat.one_mul] at hopen
  rw [List.append_assoc, List.singleton_append, decode, carried, ← hsum, ← word_word_add]
  exact hopen.trans (decodeFrom_of_ends hlast (by omega) _ rest)

/-- **Groups are read one after the other.** -/
theorem decode_groups {groups : List (List Char)} (h : ∀ g ∈ groups, IsGroup g)
    (rest : List Char) :
    decode (groups.flatten ++ rest) = (decode rest).map (groups.map carried ++ ·) := by
  induction groups with
  | nil => exact (Except.map_id (α := List Int)).symm ▸ rfl
  | cons g groups ih =>
    have hrest := ih fun g' hg' => h g' (List.mem_cons_of_mem g hg')
    rw [List.flatten_cons, List.append_assoc, decode_group (h g List.mem_cons_self), hrest]
    cases decode rest <;> rfl

/-! ## What is left after the groups -/

/-- Digits without one that ends them are broken off. -/
theorem decode_open {more : List Char} (hmore : ∀ c ∈ more, goesOn c) (hne : more ≠ [])
    (hlength : more.length ≤ 13) : decode more = .error .truncated := by
  have hopen := decodeFrom_open [] (n := 0) (k := 0) hmore (by omega)
  have hpos : 0 < more.length := List.length_pos_iff.mpr hne
  have hshift : 5 * (0 + more.length) ≠ 0 := by omega
  rw [List.append_nil, decodeFrom, if_neg hshift] at hopen
  exact hopen

/-- **The digits of the group that is open** at the end of a text. -/
def openDigits (text : List Char) : Nat := (text.rtakeWhile goesOn).length

/-- **A character is faulty** after a text: it is no digit, or the fourteenth of its group. -/
def Faulty (text : List Char) (c : Char) : Prop := c ∉ alphabet ∨ openDigits text = 13

/-- No character of a text is faulty after those before it. -/
def Faultless (text : List Char) : Prop :=
  ∀ before c after, text = before ++ c :: after → ¬ Faulty before c

/-- What a faulty character is refused for; no digit is looked at further. -/
def faultOf (c : Char) : Fault := if c ∈ alphabet then .overflow else .invalidDigit c

theorem decode_fault {more : List Char} (hmore : ∀ c ∈ more, goesOn c)
    (hlength : more.length ≤ 13) (hc : c ∉ alphabet ∨ more.length = 13) (rest : List Char) :
    decode (more ++ c :: rest) = .error (faultOf c) := by
  have hopen := decodeFrom_open (c :: rest) (n := 0) (k := 0) hmore (by omega)
  refine hopen.trans ?_
  by_cases hmem : c ∈ alphabet
  · have hfull : more.length = 13 := hc.resolve_left (not_not_intro hmem)
    rw [decodeFrom_of_full hmem (by omega), faultOf, if_pos hmem]
  · rw [decodeFrom_of_notMem hmem, faultOf, if_neg hmem]

/-! ## The first fault of a text -/

@[simp] theorem faultless_nil : Faultless [] := fun before c after h => by simp at h

theorem faultless_concat {text : List Char} :
    Faultless (text ++ [c]) ↔ Faultless text ∧ ¬ Faulty text c := by
  constructor
  · intro h
    exact ⟨fun before d after htext => h before d (after ++ [c]) (by simp [htext]),
      h text c [] rfl⟩
  · rintro ⟨htext, hc⟩ before d after hcut
    rcases List.eq_nil_or_concat after with rfl | ⟨after, e, rfl⟩
    · obtain ⟨rfl, hd⟩ := List.append_inj' hcut rfl
      exact List.singleton_inj.mp hd ▸ hc
    · have hcut' : text ++ [c] = (before ++ d :: after) ++ [e] := by simpa using hcut
      exact htext before d after (List.append_inj' hcut' rfl).1

/-- **A text is faultless, or it has a first fault.** -/
theorem faultless_or_first (text : List Char) :
    Faultless text ∨ ∃ before c after, text = before ++ c :: after ∧ Faultless before ∧
      Faulty before c := by
  induction text using List.reverseRecOn with
  | nil => exact .inl faultless_nil
  | append_singleton text c ih =>
    rcases ih with htext | ⟨before, d, after, rfl, hfirst⟩
    · by_cases hc : Faulty text c
      · exact .inr ⟨text, c, [], rfl, htext, hc⟩
      · exact .inl (faultless_concat.mpr ⟨htext, hc⟩)
    · exact .inr ⟨before, d, after ++ [c], by simp, hfirst⟩

theorem isRun_concat {more : List Char} (hmore : ∀ c ∈ more, goesOn c) (hc : ends c) :
    IsRun (more ++ [c]) := ⟨more, c, rfl, hmore, hc⟩

/-- **A faultless text is groups and, behind them, digits of a group that is open.**  The next
character goes on with the open digits or makes a group of them. -/
theorem Faultless.cut {text : List Char} (h : Faultless text) :
    ∃ (groups : List (List Char)) (more : List Char), text = groups.flatten ++ more ∧
      (∀ g ∈ groups, IsGroup g) ∧ (∀ c ∈ more, goesOn c) ∧ more.length ≤ 13 ∧
      text.rtakeWhile goesOn = more := by
  induction text using List.reverseRecOn with
  | nil => exact ⟨[], [], rfl, by simp, by simp, Nat.zero_le 13, rfl⟩
  | append_singleton text c ih =>
    obtain ⟨htext, hc⟩ := faultless_concat.mp h
    obtain ⟨groups, more, hcut, hgroups, hmore, hlength, hopen⟩ := ih htext
    obtain ⟨hmem, hroom⟩ := not_or.mp hc
    rw [openDigits, hopen] at hroom
    rcases mem_alphabet_iff.mp (not_not.mp hmem) with hgoes | hends
    · refine ⟨groups, more ++ [c], ?_, hgroups, ?_, ?_, ?_⟩
      · rw [hcut, List.append_assoc]
      · simpa using fun d hd => hd.elim (hmore d) fun hd => hd ▸ hgoes
      · rw [List.length_append, List.length_singleton]
        omega
      · rw [List.rtakeWhile_concat_pos _ _ _ hgoes, hopen]
    · refine ⟨groups ++ [more ++ [c]], [], ?_, ?_, by simp, Nat.zero_le 13, ?_⟩
      · rw [hcut, List.flatten_concat, List.append_nil, List.append_assoc]
      · intro g hg
        rcases List.mem_append.mp hg with hg | hg
        · exact hgroups g hg
        · obtain rfl := List.mem_singleton.mp hg
          refine ⟨isRun_concat hmore hends, ?_⟩
          rw [List.length_append, List.length_singleton]
          omega
      · exact List.rtakeWhile_concat_neg _ _ _ (not_goesOn_of_ends hends)

/-! ## The verdict -/

/-- **The groups of a segment.** -/
structure IsCut (segment : List Char) (groups : List (List Char)) : Prop where
  isGroup : ∀ g ∈ groups, IsGroup g
  flatten : segment = groups.flatten

variable {segment : List Char} {groups : List (List Char)}

/-- **A segment is read group by group.** -/
theorem IsCut.decode_eq (h : IsCut segment groups) : decode segment = .ok (groups.map carried) := by
  have hread := decode_groups h.isGroup []
  rw [List.append_nil, ← h.flatten] at hread
  rw [hread]
  exact congrArg Except.ok (List.append_nil _)

/-- The first fault is told, whatever follows it. -/
theorem decode_of_first {before after : List Char} (h : Faultless before) (hc : Faulty before c) :
    decode (before ++ c :: after) = .error (faultOf c) := by
  obtain ⟨groups, more, hcut, hgroups, hmore, hlength, hopen⟩ := h.cut
  have hc' : c ∉ alphabet ∨ more.length = 13 := by rwa [Faulty, openDigits, hopen] at hc
  rw [hcut, List.append_assoc, decode_groups hgroups, decode_fault hmore hlength hc']
  rfl

/-- A faultless text is made of groups or broken off. -/
theorem Faultless.isCut_or (h : Faultless segment) :
    (∃ groups, IsCut segment groups) ∨ decode segment = .error .truncated := by
  obtain ⟨groups, more, hcut, hgroups, hmore, hlength, -⟩ := h.cut
  by_cases hne : more = []
  · subst hne
    rw [List.append_nil] at hcut
    exact .inl ⟨groups, hgroups, hcut⟩
  · refine .inr ?_
    rw [hcut, decode_groups hgroups, decode_open hmore hne hlength]
    rfl

/-- **What is read is made of groups.** -/
theorem exists_isCut {values : List Int} (h : decode segment = .ok values) :
    ∃ groups, IsCut segment groups := by
  rcases faultless_or_first segment with hfaultless | ⟨before, c, after, rfl, hbefore, hc⟩
  · refine hfaultless.isCut_or.resolve_right fun hbroken => ?_
    rw [h] at hbroken
    cases hbroken
  · rw [decode_of_first hbefore hc] at h
    cases h

/-- **What becomes of a text.**  It is read exactly if it is made of groups, and then there is a
number for each of them.  The first character that is no digit or the fourteenth of its group is
what any other text is refused for, and a text without one is broken off. -/
theorem decode_verdict (segment : List Char) :
    ((∃ values, decode segment = .ok values) ↔ ∃ groups, IsCut segment groups) ∧
    (∀ groups, IsCut segment groups →
      ∃ values, decode segment = .ok values ∧ values.length = groups.length) ∧
    (¬ Faultless segment → ∃ before c after, segment = before ++ c :: after ∧
      Faultless before ∧ Faulty before c ∧
      decode segment = .error (if c ∈ alphabet then .overflow else .invalidDigit c)) ∧
    (Faultless segment → (¬ ∃ groups, IsCut segment groups) →
      decode segment = .error .truncated) := by
  refine ⟨⟨?_, ?_⟩, ?_, ?_, ?_⟩
  · rintro ⟨values, h⟩
    exact exists_isCut h
  · rintro ⟨groups, h⟩
    exact ⟨_, h.decode_eq⟩
  · intro groups h
    exact ⟨_, h.decode_eq, List.length_map _⟩
  · intro hfault
    obtain ⟨before, c, after, rfl, hbefore, hc⟩ := (faultless_or_first segment).resolve_left hfault
    exact ⟨before, c, after, rfl, hbefore, hc, decode_of_first hbefore hc⟩
  · intro hfaultless hcut
    exact hfaultless.isCut_or.resolve_left hcut

end ConsoleLens.Vlq
