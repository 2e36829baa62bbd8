import ConsoleLens.Json.Reader
import ConsoleLens.Proofs.Text.Digits

/-!
# Proofs/Json/Number — how a number is spelled

A literal is put together from four parts, of which two may be missing:

    sign   whole   fraction   exponent        -12.50e+3
     -      12       .50        e+3

`IsLiteral` says so, and **a literal is read as far as it goes** (`number?_append`), while nothing
else is ever read as a number (`isLiteral_of_number?`).  The one spelling that is kept of a literal
is a literal again, and its own kept spelling.
-/

namespace ConsoleLens.Json

/-! ## The parts of a literal -/

/-- A non-empty run of decimal digits. -/
def IsDigits (ds : List Char) : Prop := ds ≠ [] ∧ ∀ c ∈ ds, Digits.isDecimal c = true

/-- The digits before the point: no zero stands in front of another digit. -/
def IsWhole (ds : List Char) : Prop := IsDigits ds ∧ (ds = ['0'] ∨ ds.head? ≠ some '0')

/-- The point and the digits after it, if there is a point. -/
def IsFraction (cs : List Char) : Prop := cs = [] ∨ ∃ ds, IsDigits ds ∧ cs = '.' :: ds

/-- The mark, the sign if there is one, and the digits of an exponent, if there is an exponent. -/
def IsExponent (cs : List Char) : Prop :=
  cs = [] ∨ ∃ mark sign ds, (mark = 'e' ∨ mark = 'E') ∧ (sign = [] ∨ sign = ['+'] ∨ sign = ['-']) ∧
    IsDigits ds ∧ cs = mark :: (sign ++ ds)

/-- **A number as it is spelled.** -/
def IsLiteral (cs : List Char) : Prop :=
  ∃ sign whole fraction exponent, (sign = [] ∨ sign = ['-']) ∧ IsWhole whole ∧
    IsFraction fraction ∧ IsExponent exponent ∧ cs = sign ++ whole ++ fraction ++ exponent

theorem isDigits_decimal (n : Nat) : IsDigits (Digits.decimal n) :=
  ⟨Nat.toDigits_ne_nil, fun _ => Digits.isDecimal_of_mem_decimal⟩

/-- The digits of a natural are a literal. -/
theorem isLiteral_decimal (n : Nat) : IsLiteral (Digits.decimal n) :=
  ⟨[], Digits.decimal n, [], [], .inl rfl, ⟨isDigits_decimal n, Digits.decimal_eq_zero_or n⟩,
    .inl rfl, .inl rfl, by simp⟩

/-! ## Reading -/

/-- Whether a literal may go on with `c`. -/
def inLiteral (c : Char) : Bool := Digits.isDecimal c || c = '.' || c = 'e' || c = 'E'

/-- A character that is no part of a literal is none of a part of it. -/
theorem inLiteral_eq_false {c : Char} :
    inLiteral c = false ↔ Digits.isDecimal c = false ∧ c ≠ '.' ∧ c ≠ 'e' ∧ c ≠ 'E' := by
  simp [inLiteral, and_assoc]

namespace Reader

open Text

variable {cs rest : List Char}

theorem digits?_append (h : IsDigits cs) (hrest : Stops Digits.isDecimal rest) :
    digits? (cs ++ rest) = some (cs, rest) := by
  obtain ⟨c, ds, rfl⟩ := List.exists_cons_of_ne_nil h.1
  rw [digits?, takeWhile_append_of_stops h.2 hrest, dropWhile_append_of_stops h.2 hrest]

theorem isDigits_of_digits? {s : List Char} (h : digits? s = some (cs, rest)) :
    IsDigits cs ∧ cs = s.takeWhile Digits.isDecimal := by
  rw [digits?] at h
  split at h
  · cases h
  · next hne =>
    cases h
    exact ⟨⟨hne, fun c hc => List.all_eq_true.mp List.all_takeWhile c hc⟩, rfl⟩

theorem whole?_append (h : IsWhole cs) (hrest : Stops Digits.isDecimal rest) :
    whole? (cs ++ rest) = some (cs, rest) := by
  obtain ⟨hdigits, rfl | hzero⟩ := h
  · cases rest with
    | nil => rfl
    | cons c rest => simp [whole?, stops_cons.mp hrest]
  · obtain ⟨c, ds, rfl⟩ := List.exists_cons_of_ne_nil hdigits.1
    have hc : c ≠ '0' := by simpa using hzero
    rw [← digits?_append hdigits hrest, List.cons_append, whole?]
    simp [hc]

theorem isWhole_of_whole? {s : List Char} (h : whole? s = some (cs, rest)) : IsWhole cs := by
  have hzero : IsDigits ['0'] := ⟨List.cons_ne_nil _ _, List.forall_mem_singleton.mpr rfl⟩
  unfold whole? at h
  split at h
  · split at h
    · split at h
      · cases h
      · cases h
        exact ⟨hzero, .inl rfl⟩
    · cases h
      exact ⟨hzero, .inl rfl⟩
  · next hs =>
    obtain ⟨hdigits, rfl⟩ := isDigits_of_digits? h
    refine ⟨hdigits, .inr fun hhead => ?_⟩
    cases s with
    | nil => cases hhead
    | cons c s =>
      rw [List.takeWhile_cons] at hhead
      split at hhead
      · obtain rfl : c = '0' := Option.some.inj hhead
        exact hs s rfl
      · cases hhead

/-- Digits stop where a literal does. -/
theorem stops_isDecimal (h : Stops inLiteral rest) : Stops Digits.isDecimal rest :=
  fun c hc => (inLiteral_eq_false.mp (h c hc)).1

/-- Digits stop at the point and at the mark of an exponent. -/
theorem stops_isDecimal_exponent (h : IsExponent cs) (hrest : Stops inLiteral rest) :
    Stops Digits.isDecimal (cs ++ rest) := by
  obtain rfl | ⟨mark, sign, ds, hmark, -, -, rfl⟩ := h
  · exact stops_isDecimal hrest
  · rw [List.cons_append, stops_cons]
    rcases hmark with rfl | rfl <;> rfl

theorem stops_isDecimal_fraction (h : IsFraction cs) (hrest : Stops Digits.isDecimal rest) :
    Stops Digits.isDecimal (cs ++ rest) := by
  obtain rfl | ⟨ds, -, rfl⟩ := h
  · exact hrest
  · rw [List.cons_append, stops_cons]
    rfl

theorem fraction?_append (h : IsFraction cs) (hpoint : rest.head? ≠ some '.')
    (hrest : Stops Digits.isDecimal rest) : fraction? (cs ++ rest) = some (cs, rest) := by
  obtain rfl | ⟨ds, hdigits, rfl⟩ := h
  · rw [List.nil_append, fraction?]
    rintro rest rfl
    exact hpoint rfl
  · rw [List.cons_append, fraction?, digits?_append hdigits hrest, Option.map_some]

theorem isFraction_of_fraction? {s : List Char} (h : fraction? s = some (cs, rest)) :
    IsFraction cs := by
  unfold fraction? at h
  split at h
  · obtain ⟨⟨ds, rest'⟩, hdigits, h⟩ := Option.map_eq_some_iff.mp h
    cases h
    exact .inr ⟨ds, (isDigits_of_digits? hdigits).1, rfl⟩
  · cases h
    exact .inl rfl

theorem exponent?_append (h : IsExponent cs) (hrest : Stops inLiteral rest) :
    exponent? (cs ++ rest) = some (cs, rest) := by
  obtain rfl | ⟨mark, sign, ds, hmark, hsign, hdigits, rfl⟩ := h
  · cases rest with
    | nil => rfl
    | cons c rest =>
      obtain ⟨-, -, he, hE⟩ := inLiteral_eq_false.mp (stops_cons.mp hrest)
      unfold exponent?
      simp [he, hE]
  · have hread : digits? (ds ++ rest) = some (ds, rest) :=
      digits?_append hdigits (stops_isDecimal hrest)
    unfold exponent?
    simp only [List.cons_append, if_pos hmark]
    rcases hsign with rfl | rfl | rfl
    · obtain ⟨c, ds, rfl⟩ := List.exists_cons_of_ne_nil hdigits.1
      have hc : Digits.isDecimal c = true := hdigits.2 c List.mem_cons_self
      have hplus : c ≠ '+' := ne_of_kind hc rfl
      have hminus : c ≠ '-' := ne_of_kind hc rfl
      rw [List.cons_append] at hread
      simp [hplus, hminus, hread]
    · simp [hread]
    · simp [hread]

theorem isExponent_of_exponent? {s : List Char} (h : exponent? s = some (cs, rest)) :
    IsExponent cs := by
  unfold exponent? at h
  split at h
  · cases h
    exact .inl rfl
  · next c _ =>
    split at h
    · next hmark =>
      -- the sign decides only where the digits start
      have hsigned (sign : List Char) (hsign : sign = [] ∨ sign = ['+'] ∨ sign = ['-'])
          {s : List Char} (h : (digits? s).map (fun found => (c :: (sign ++ found.1), found.2)) =
            some (cs, rest)) : IsExponent cs := by
        obtain ⟨⟨ds, rest'⟩, hdigits, h⟩ := Option.map_eq_some_iff.mp h
        cases h
        exact .inr ⟨c, sign, ds, hmark, hsign, (isDigits_of_digits? hdigits).1, rfl⟩
      split at h
      · exact hsigned ['+'] (.inr (.inl rfl)) h
      · exact hsigned ['-'] (.inr (.inr rfl)) h
      · exact hsigned [] (.inl rfl) h
    · cases h
      exact .inl rfl

/-- What follows the sign of a number. -/
def signed? (sign s : List Char) : Option (List Char × List Char) := do
  let (whole, s) ← whole? s
  let (fraction, s) ← fraction? s
  let (exponent, s) ← exponent? s
  return (sign ++ whole ++ fraction ++ exponent, s)

theorem number?_minus (s : List Char) : number? ('-' :: s) = signed? ['-'] s := rfl

theorem number?_of_ne {c : Char} (h : c ≠ '-') (s : List Char) :
    number? (c :: s) = signed? [] (c :: s) := by
  simp [number?, signed?, h]

theorem signed?_append {whole fraction exponent : List Char} (sign : List Char)
    (hwhole : IsWhole whole) (hfraction : IsFraction fraction) (hexponent : IsExponent exponent)
    (hrest : Stops inLiteral rest) :
    signed? sign (whole ++ (fraction ++ (exponent ++ rest))) =
      some (sign ++ whole ++ fraction ++ exponent, rest) := by
  have hstops : Stops Digits.isDecimal (exponent ++ rest) :=
    stops_isDecimal_exponent hexponent hrest
  have hpoint : (exponent ++ rest).head? ≠ some '.' := by
    obtain rfl | ⟨mark, sign, ds, hmark, -, -, rfl⟩ := hexponent
    · exact fun h => (inLiteral_eq_false.mp (hrest _ h)).2.1 rfl
    · rcases hmark with rfl | rfl <;> simp
  rw [signed?, whole?_append hwhole (stops_isDecimal_fraction hfraction hstops)]
  simp only [Option.bind_eq_bind, Option.bind_some, fraction?_append hfraction hpoint hstops,
    exponent?_append hexponent hrest, Option.pure_def]

/-- **A literal is read as far as it goes.** -/
theorem number?_append (h : IsLiteral cs) (hrest : Stops inLiteral rest) :
    number? (cs ++ rest) = some (cs, rest) := by
  obtain ⟨sign, whole, fraction, exponent, hsign, hwhole, hfraction, hexponent, rfl⟩ := h
  have hread := signed?_append sign hwhole hfraction hexponent hrest
  simp only [List.append_assoc] at hread ⊢
  rcases hsign with rfl | rfl
  · obtain ⟨c, ds, rfl⟩ := List.exists_cons_of_ne_nil hwhole.1.1
    have hc : Digits.isDecimal c = true := hwhole.1.2 c List.mem_cons_self
    have hminus : c ≠ '-' := ne_of_kind hc rfl
    exact (number?_of_ne hminus _).trans hread
  · exact (number?_minus _).trans hread

theorem isLiteral_of_signed? {sign s : List Char} (hsign : sign = [] ∨ sign = ['-'])
    (h : signed? sign s = some (cs, rest)) : IsLiteral cs := by
  obtain ⟨⟨whole, s₁⟩, hwhole, h⟩ := Option.bind_eq_some_iff.mp h
  obtain ⟨⟨fraction, s₂⟩, hfraction, h⟩ := Option.bind_eq_some_iff.mp h
  obtain ⟨⟨exponent, s₃⟩, hexponent, h⟩ := Option.bind_eq_some_iff.mp h
  cases h
  exact ⟨sign, whole, fraction, exponent, hsign, isWhole_of_whole? hwhole,
    isFraction_of_fraction? hfraction, isExponent_of_exponent? hexponent, rfl⟩

/-- **Nothing but a literal is read as a number.** -/
theorem isLiteral_of_number? {s : List Char} (h : number? s = some (cs, rest)) : IsLiteral cs := by
  cases s with
  | nil => exact isLiteral_of_signed? (s := []) (.inl rfl) h
  | cons c s =>
    by_cases hminus : c = '-'
    · subst hminus
      exact isLiteral_of_signed? (.inr rfl) (number?_minus s ▸ h)
    · exact isLiteral_of_signed? (.inl rfl) (number?_of_ne hminus s ▸ h)

end Reader

/-! ## The kept spelling -/

theorem canonicalExponent_cons {c : Char} (h : ¬ (c = 'e' ∨ c = 'E')) (cs : List Char) :
    canonicalExponent (c :: cs) = c :: canonicalExponent cs := by
  rw [canonicalExponent.eq_def]
  simp only [if_neg h]

/-- An exponent comes to start with its mark in lower case. -/
theorem head?_canonicalExponent {c : Char} (h : c = 'e' ∨ c = 'E') (cs : List Char) :
    (canonicalExponent (c :: cs)).head? = some 'e' := by
  rw [canonicalExponent.eq_def]
  simp only [if_pos h]
  split <;> rfl

/-- What is not part of an exponent stays. -/
theorem canonicalExponent_append {cs : List Char} (h : 'e' ∉ cs ∧ 'E' ∉ cs) (rest : List Char) :
    canonicalExponent (cs ++ rest) = cs ++ canonicalExponent rest := by
  induction cs with
  | nil => rfl
  | cons c cs ih =>
    simp only [List.mem_cons, not_or] at h
    rw [List.cons_append, canonicalExponent_cons (not_or.mpr ⟨Ne.symm h.1.1, Ne.symm h.2.1⟩),
      ih ⟨h.1.2, h.2.2⟩, List.cons_append]

/-- A spelling without an exponent is that of itself only. -/
theorem eq_of_canonicalExponent_eq {cs kept : List Char} (hkept : 'e' ∉ kept)
    (h : canonicalExponent cs = kept) : cs = kept := by
  induction cs generalizing kept with
  | nil => exact h
  | cons c cs ih =>
    subst h
    by_cases hc : c = 'e' ∨ c = 'E'
    · exact absurd (List.mem_of_mem_head? (head?_canonicalExponent hc cs)) hkept
    · rw [canonicalExponent_cons hc] at hkept ⊢
      rw [← ih (fun h => hkept (List.mem_cons_of_mem c h)) rfl]

theorem isExponent_canonicalExponent {cs : List Char} (h : IsExponent cs) :
    IsExponent (canonicalExponent cs) := by
  obtain rfl | ⟨mark, sign, ds, hmark, hsign, hdigits, rfl⟩ := h
  · exact .inl rfl
  · unfold canonicalExponent
    simp only [if_pos hmark]
    rcases hsign with rfl | rfl | rfl
    · obtain ⟨c, ds, rfl⟩ := List.exists_cons_of_ne_nil hdigits.1
      have hc : Digits.isDecimal c = true := hdigits.2 c List.mem_cons_self
      have hplus : c ≠ '+' := Text.ne_of_kind hc rfl
      have hminus : c ≠ '-' := Text.ne_of_kind hc rfl
      exact .inr ⟨'e', ['+'], c :: ds, .inl rfl, .inr (.inl rfl), hdigits, by simp [hplus, hminus]⟩
    · exact .inr ⟨'e', ['+'], ds, .inl rfl, .inr (.inl rfl), hdigits, rfl⟩
    · exact .inr ⟨'e', ['-'], ds, .inl rfl, .inr (.inr rfl), hdigits, rfl⟩

theorem IsDigits.no_mark {ds : List Char} (h : IsDigits ds) : 'e' ∉ ds ∧ 'E' ∉ ds :=
  ⟨fun he => absurd (h.2 _ he) (by decide), fun hE => absurd (h.2 _ hE) (by decide)⟩

/-- **The kept spelling of a literal is a literal.** -/
theorem IsLiteral.canonical {literal : String} (h : IsLiteral literal.toList) :
    IsLiteral (canonicalLiteral literal).toList := by
  unfold canonicalLiteral
  split
  · exact isLiteral_decimal 0
  · obtain ⟨sign, whole, fraction, exponent, hsign, hwhole, hfraction, hexponent, hcs⟩ := h
    have hstays : 'e' ∉ sign ++ whole ++ fraction ∧ 'E' ∉ sign ++ whole ++ fraction := by
      have hwhole := hwhole.1.no_mark
      rcases hsign with rfl | rfl <;> obtain rfl | ⟨ds, hds, rfl⟩ := hfraction <;>
        simp [*, IsDigits.no_mark]
    rw [String.toList_ofList, hcs, canonicalExponent_append hstays]
    exact ⟨sign, whole, fraction, _, hsign, hwhole, hfraction,
      isExponent_canonicalExponent hexponent, rfl⟩

theorem canonicalExponent_canonicalExponent (cs : List Char) :
    canonicalExponent (canonicalExponent cs) = canonicalExponent cs := by
  induction cs with
  | nil => rfl
  | cons c cs ih =>
    by_cases h : c = 'e' ∨ c = 'E'
    · rw [canonicalExponent.eq_def (c :: cs)]
      simp only [if_pos h]
      split <;> simp [canonicalExponent]
    · rw [canonicalExponent_cons h, canonicalExponent_cons h, ih]

/-- **The kept spelling is its own kept spelling.** -/
theorem canonicalLiteral_canonicalLiteral (literal : String) :
    canonicalLiteral (canonicalLiteral literal) = canonicalLiteral literal := by
  by_cases h : literal = "-0"
  · rw [h]
    decide
  · have hzero : String.ofList (canonicalExponent literal.toList) ≠ "-0" := by
      intro hzero
      have hlist : canonicalExponent literal.toList = "-0".toList := by
        rw [← hzero, String.toList_ofList]
      exact h (String.toList_injective (eq_of_canonicalExponent_eq (by decide) hlist))
    have hkept : canonicalLiteral literal = String.ofList (canonicalExponent literal.toList) :=
      if_neg h
    rw [hkept, canonicalLiteral, if_neg hzero, String.toList_ofList,
      canonicalExponent_canonicalExponent]

end ConsoleLens.Json
