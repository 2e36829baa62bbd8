import ConsoleLens.Proofs.Text.Digits
import ConsoleLens.Toml.Printer

/-!
# Proofs/Toml/Quoted — strings written between quotes, and read again

A character between double quotes is written as a quote that needs no escape, as an escape, or as it
is (`escaped_cons`), and each of these is read as the character again.  Three quotes in a row close
a string of several lines, so **a quote that stands as it is must not be the first of three**,
unless the string ends there (`closing?_rawQuote`, `closing?_shortRun`).

Whatever form is chosen, **every string is read as it was written** (`string?_quote`), in front of
anything that does not go on with a quote.
-/

namespace ConsoleLens.Toml

open Text

/-! ## Escapes -/

/-- A code of as many digits as it has to have. -/
theorem coded?_append {width n : Nat} {ds : List Char} (hlength : ds.length = width)
    (hds : Digits.natural? 16 ds = some n) (hn : n.isValidChar) (rest : List Char) :
    coded? width (ds ++ rest) = some (Char.ofNat n, rest) := by
  rw [coded?, if_neg (by simp [← hlength]), List.take_left' hlength, List.drop_left' hlength, hds]
  exact if_pos hn

/-- The code of a control character is four digits. -/
theorem natural?_escapedCode {c : Char} (h : isControl c = true) :
    ∃ ds, escapedCode c = '\\' :: 'u' :: ds ∧ ds.length = 4 ∧
      Digits.natural? 16 ds = some c.toNat := by
  have hall : ∀ n < 128, (n < 32 ∨ n = 127) →
      (Digits.padded 4 ((Digits.hex n).map Char.toUpper)).length = 4 ∧
      Digits.natural? 16 (Digits.padded 4 ((Digits.hex n).map Char.toUpper)) = some n := by
    decide +kernel
  have hc : c.toNat < 32 ∨ c.toNat = 127 := by
    simp [isControl] at h
    omega
  exact ⟨_, rfl, hall c.toNat (by omega) hc⟩

/-- **An escape is read as the character that it stands for**, and folds no lines. -/
theorem escape?_escapeOf? {c : Char} {w : List Char} (h : escapeOf? c = some w) :
    ∃ code, w = '\\' :: code ∧ ∀ rest,
      escape? (code ++ rest) = some (c, rest) ∧ dropFold? (code ++ rest) = none := by
  unfold escapeOf? at h
  split_ifs at h with h₁ h₂ h₃ h₄ h₅ h₆
  all_goals obtain rfl := Option.some.inj h
  iterate 5 exact ⟨_, rfl, fun _ => by subst_vars; exact ⟨rfl, rfl⟩⟩
  obtain ⟨ds, hcode, hlength, hds⟩ := natural?_escapedCode h₆
  refine ⟨'u' :: ds, hcode, fun rest => ⟨?_, rfl⟩⟩
  have hread := coded?_append hlength hds c.valid rest
  rw [Char.ofNat_toNat] at hread
  exact hread

theorem isPlain_or_of_not_isControl {c : Char} (h : ¬ isControl c = true) :
    isPlain c = true ∨ c = '\n' := by
  by_cases hbreak : c = '\n'
  · exact .inr hbreak
  by_cases htab : c = '\t'
  · exact .inl (htab ▸ rfl)
  simp [isControl, htab, hbreak] at h
  simp [isPlain, htab, hbreak]
  omega

/-- A character without an escape stands for itself, or breaks the line. -/
theorem of_escapeOf?_none {c : Char} (h : escapeOf? c = none) :
    c ≠ '\\' ∧ (isPlain c = true ∨ c = '\n') := by
  unfold escapeOf? at h
  split_ifs at h with h₁ h₂ h₃ h₄ h₅ h₆
  exact ⟨h₅, isPlain_or_of_not_isControl h₆⟩

/-- **How a character is written between double quotes**: as a quote that needs no escape, as an
escape, or as it is. -/
theorem escaped_cons (long : Bool) (run : Nat) (c : Char) (cs : List Char) :
    (long = true ∧ run < 2 ∧ c = dquote ∧
      escaped long run (c :: cs) = dquote :: escaped long (run + 1) cs) ∨
    (∃ code, escaped long run (c :: cs) = '\\' :: (code ++ escaped long 0 cs) ∧ ∀ rest,
      escape? (code ++ rest) = some (c, rest) ∧ dropFold? (code ++ rest) = none) ∨
    (c ≠ '\\' ∧ c ≠ dquote ∧ (isPlain c = true ∨ long = true ∧ c = '\n') ∧
      escaped long run (c :: cs) = c :: escaped long 0 cs) := by
  by_cases hquote : c = dquote
  · subst hquote
    rw [escaped, if_pos rfl]
    by_cases hraw : long = true ∧ run < 2
    · exact .inl ⟨hraw.1, hraw.2, rfl, if_pos (by simpa using hraw)⟩
    · exact .inr (.inl ⟨[dquote], if_neg (by simpa using hraw), fun rest => ⟨rfl, rfl⟩⟩)
  by_cases hbreak : c = '\n'
  · subst hbreak
    rw [escaped, if_neg hquote, if_pos rfl]
    cases long with
    | true => exact .inr (.inr ⟨by decide, hquote, .inr ⟨rfl, rfl⟩, rfl⟩)
    | false => exact .inr (.inl ⟨['n'], rfl, fun rest => ⟨rfl, rfl⟩⟩)
  rw [escaped, if_neg hquote, if_neg hbreak]
  cases hescape : escapeOf? c with
  | some w =>
    obtain ⟨code, rfl, hcode⟩ := escape?_escapeOf? hescape
    exact .inr (.inl ⟨code, rfl, hcode⟩)
  | none =>
    obtain ⟨hne, hplain⟩ := of_escapeOf?_none hescape
    exact .inr (.inr ⟨hne, hquote, .inl (hplain.resolve_right hbreak), rfl⟩)

/-- A character that is no quote, or a quote after two of them, is not written as a quote. -/
theorem exists_escaped_cons {long : Bool} {run : Nat} {c : Char}
    (h : c ≠ dquote ∨ long = false ∨ 2 ≤ run) (cs : List Char) :
    ∃ d written, escaped long run (c :: cs) = d :: written ∧ d ≠ dquote := by
  rcases escaped_cons long run c cs with ⟨hlong, hrun, hc, -⟩ | ⟨code, heq, -⟩ | ⟨-, hne, -, heq⟩
  · rcases h with h | h | h
    · exact absurd hc h
    · exact absurd (hlong.symm.trans h) (by decide)
    · omega
  · exact ⟨_, _, heq, by decide⟩
  · exact ⟨_, _, heq, hne⟩

theorem length_le_escaped (long : Bool) : ∀ (cs : List Char) (run : Nat),
    cs.length ≤ (escaped long run cs).length
  | [], _ => Nat.zero_le _
  | c :: cs, run => by
    have hrest := length_le_escaped long cs
    rcases escaped_cons long run c cs with ⟨-, -, -, heq⟩ | ⟨code, heq, -⟩ | ⟨-, -, -, heq⟩
    · simpa [heq] using hrest (run + 1)
    · have := hrest 0
      simp [heq]
      omega
    · simpa [heq] using hrest 0

/-! ## One line -/

theorem basic?_escape {s rest : List Char} {c : Char} (h : escape? s = some (c, rest))
    (done : List Char) (fuel : Nat) :
    basic? done ('\\' :: s) (fuel + 1) = basic? (c :: done) rest fuel := by
  simp [basic?, h]

theorem basic?_plain {c : Char} (hescape : c ≠ '\\') (hquote : c ≠ dquote)
    (hplain : isPlain c = true) (done rest : List Char) (fuel : Nat) :
    basic? done (c :: rest) (fuel + 1) = basic? (c :: done) rest fuel := by
  rw [basic?.eq_def]
  simp [hquote, hplain]

/-- **A string between double quotes is read as it was written**, up to the closing quote. -/
theorem basic?_escaped : ∀ {cs : List Char} {run fuel : Nat}, cs.length < fuel →
    ∀ done rest, basic? done (escaped false run cs ++ dquote :: rest) fuel =
      some (done.reverse ++ cs, rest)
  | [], _, fuel + 1, _, done, rest => by
    rw [List.append_nil]
    rfl
  | c :: cs, run, fuel + 1, hfuel, done, rest => by
    have hread : basic? (c :: done) (escaped false 0 cs ++ dquote :: rest) fuel =
        some (done.reverse ++ c :: cs, rest) := by
      rw [basic?_escaped (Nat.lt_of_succ_lt_succ hfuel), List.reverse_cons, List.append_assoc,
        List.singleton_append]
    rcases escaped_cons false run c cs with
      ⟨hlong, -⟩ | ⟨code, heq, hcode⟩ | ⟨hne, hquote, hplain, heq⟩
    · cases hlong
    · rw [heq, List.cons_append, List.append_assoc]
      exact (basic?_escape (hcode _).1 done fuel).trans hread
    · have hplain : isPlain c = true := hplain.resolve_right fun h => by cases h.1
      rw [heq]
      exact (basic?_plain hne hquote hplain done _ fuel).trans hread

theorem literal?_append {cs : List Char} (h : ∀ c ∈ cs, c ≠ squote ∧ isPlain c = true)
    (done rest : List Char) :
    literal? done (cs ++ squote :: rest) = some (done.reverse ++ cs, rest) := by
  induction cs generalizing done with
  | nil => simp [literal?]
  | cons c cs ih =>
    obtain ⟨⟨hne, hplain⟩, hcs⟩ := List.forall_mem_cons.mp h
    rw [List.cons_append, literal?, if_neg hne, if_pos hplain, ih hcs, List.reverse_cons,
      List.append_assoc, List.singleton_append]

/-! ## Several lines -/

theorem closing?_of_ne {quote c : Char} (h : c ≠ quote) (rest : List Char) :
    closing? quote (c :: rest) = none := by
  unfold closing?
  split
  · next heq =>
    obtain ⟨rfl, -⟩ := List.cons.inj heq
    exact if_neg fun hall => h hall.1
  · rfl

theorem closing?_second {quote c : Char} (h : c ≠ quote) (rest : List Char) :
    closing? quote (quote :: c :: rest) = none := by
  unfold closing?
  split
  · next heq =>
    cases heq
    exact if_neg fun hall => h hall.2.1
  · rfl

theorem closing?_third {quote c : Char} (h : c ≠ quote) (rest : List Char) :
    closing? quote (quote :: quote :: c :: rest) = none := by
  rw [closing?, if_neg fun hall => h hall.2.2]

/-- Quotes in front of the closing ones belong to the string, two of them at most. -/
theorem closing?_replicate {quote : Char} {n : Nat} (hn : n ≤ 2) {rest : List Char}
    (h : Stops (· = quote) rest) :
    closing? quote (List.replicate n quote ++ quote :: quote :: quote :: rest) =
      some (List.replicate n quote, rest) := by
  have hrest := takeWhile_of_stops h
  match n with
  | 0 => simp [closing?, hrest]
  | 1 => simp [closing?, hrest]
  | 2 => simp [closing?, hrest]

theorem longBasic?_closing {s extra rest : List Char} (h : closing? dquote s = some (extra, rest))
    (done : List Char) (fuel : Nat) :
    longBasic? done s (fuel + 1) = some (done.reverse ++ extra, rest) := by
  rw [longBasic?.eq_def]
  simp [h]

theorem longBasic?_escape {s rest : List Char} {c : Char} (h : escape? s = some (c, rest))
    (hfold : dropFold? s = none) (done : List Char) (fuel : Nat) :
    longBasic? done ('\\' :: s) (fuel + 1) = longBasic? (c :: done) rest fuel := by
  rw [longBasic?, closing?_of_ne (by decide)]
  simp [h, hfold]

theorem longBasic?_char {c : Char} {rest : List Char}
    (hclosing : closing? dquote (c :: rest) = none) (hescape : c ≠ '\\')
    (hon : goesOn (c :: rest) = true) (done : List Char) (fuel : Nat) :
    longBasic? done (c :: rest) (fuel + 1) = longBasic? (c :: done) rest fuel := by
  rw [longBasic?.eq_def]
  simp [hclosing, hon]

theorem goesOn_cons {c : Char} (h : isPlain c = true ∨ c = '\n') (rest : List Char) :
    goesOn (c :: rest) = true := by
  simp only [goesOn, Bool.or_eq_true, decide_eq_true_eq]
  exact .inl h

/-- **A quote that needs no escape does not close the string too early**: three quotes in a row are
the closing ones, or quotes at the end of the string stand in front of these. -/
theorem closing?_rawQuote {run : Nat} (hrun : run < 2) (cs : List Char) {rest : List Char}
    (hrest : Stops (· = dquote) rest) :
    closing? dquote (dquote :: (escaped true (run + 1) cs ++ dquote :: dquote :: dquote :: rest)) =
        none ∨
      closing? dquote
          (dquote :: (escaped true (run + 1) cs ++ dquote :: dquote :: dquote :: rest)) =
        some (dquote :: cs, rest) := by
  match cs with
  | [] => exact .inr (closing?_replicate (n := 1) (by decide) hrest)
  | d :: cs =>
    by_cases hd : d = dquote ∧ run = 0
    · obtain ⟨rfl, rfl⟩ := hd
      have hraw : escaped true 1 (dquote :: cs) = dquote :: escaped true 2 cs := rfl
      rw [hraw]
      match cs with
      | [] => exact .inr (closing?_replicate (n := 2) (by decide) hrest)
      | e :: cs =>
        have hrun : e ≠ dquote ∨ true = false ∨ 2 ≤ 2 := .inr (.inr (Nat.le_refl 2))
        obtain ⟨w, written, heq, hw⟩ := exists_escaped_cons hrun cs
        rw [heq]
        exact .inl (closing?_third hw _)
    · have hrun : d ≠ dquote ∨ true = false ∨ 2 ≤ run + 1 := by
        by_cases hquote : d = dquote
        · have hzero : run ≠ 0 := fun h => hd ⟨hquote, h⟩
          omega
        · exact .inl hquote
      obtain ⟨w, written, heq, hw⟩ := exists_escaped_cons hrun cs
      rw [heq]
      exact .inl (closing?_second hw _)

/-- **A string between three double quotes is read as it was written**, up to the closing ones. -/
theorem longBasic?_escaped {rest : List Char} (hrest : Stops (· = dquote) rest) :
    ∀ {cs : List Char} {run fuel : Nat}, cs.length < fuel → ∀ done,
      longBasic? done (escaped true run cs ++ dquote :: dquote :: dquote :: rest) fuel =
        some (done.reverse ++ cs, rest)
  | [], _, fuel + 1, _, done =>
    longBasic?_closing (closing?_replicate (n := 0) (by decide) hrest) done fuel
  | c :: cs, run, fuel + 1, hfuel, done => by
    have hread (run : Nat) : longBasic? (c :: done)
        (escaped true run cs ++ dquote :: dquote :: dquote :: rest) fuel =
        some (done.reverse ++ c :: cs, rest) := by
      rw [longBasic?_escaped hrest (Nat.lt_of_succ_lt_succ hfuel), List.reverse_cons,
        List.append_assoc, List.singleton_append]
    rcases escaped_cons true run c cs with
      ⟨-, hrun, rfl, heq⟩ | ⟨code, heq, hcode⟩ | ⟨hne, hquote, hplain, heq⟩
    · rw [heq]
      rcases closing?_rawQuote hrun cs hrest with hnone | hsome
      · exact (longBasic?_char hnone (by decide) (goesOn_cons (.inl rfl) _) done fuel).trans
          (hread _)
      · exact longBasic?_closing hsome done fuel
    · rw [heq, List.cons_append, List.append_assoc]
      exact (longBasic?_escape (hcode _).1 (hcode _).2 done fuel).trans (hread 0)
    · have hon := goesOn_cons (hplain.imp_right And.right)
      rw [heq]
      exact (longBasic?_char (closing?_of_ne hquote _) hne (hon _) done fuel).trans (hread 0)

/-- A run of quotes goes on at least as far as it has come. -/
theorem le_longestRun (c : Char) : ∀ (cs : List Char) (run : Nat), run ≤ longestRun c run cs
  | [], _ => Nat.le_refl _
  | d :: cs, run => by
    rw [longestRun]
    split_ifs
    · exact Nat.le_of_succ_le (le_longestRun c cs (run + 1))
    · exact Nat.le_max_left ..

theorem longestRun_cons_self (c : Char) (run : Nat) (cs : List Char) :
    longestRun c run (c :: cs) = longestRun c (run + 1) cs := if_pos rfl

theorem longestRun_cons_of_ne {c d : Char} (h : d ≠ c) (run : Nat) (cs : List Char) :
    longestRun c run (d :: cs) = max run (longestRun c 0 cs) := if_neg h

/-- As `closing?_rawQuote`, where a string has no three quotes in a row. -/
theorem closing?_shortRun {run : Nat} {cs : List Char}
    (h : longestRun squote run (squote :: cs) < 3) {rest : List Char}
    (hrest : Stops (· = squote) rest) :
    closing? squote (squote :: (cs ++ squote :: squote :: squote :: rest)) = none ∨
      closing? squote (squote :: (cs ++ squote :: squote :: squote :: rest)) =
        some (squote :: cs, rest) := by
  match cs with
  | [] => exact .inr (closing?_replicate (n := 1) (by decide) hrest)
  | d :: cs =>
    by_cases hd : d = squote
    · subst hd
      match cs with
      | [] => exact .inr (closing?_replicate (n := 2) (by decide) hrest)
      | e :: cs =>
        refine .inl (closing?_third (fun he => ?_) _)
        subst he
        have hlong := le_longestRun squote cs (run + 1 + 1 + 1)
        simp only [longestRun_cons_self] at h
        omega
    · exact .inl (closing?_second hd _)

theorem longLiteral?_closing {s extra rest : List Char}
    (h : closing? squote s = some (extra, rest)) (done : List Char) :
    longLiteral? done s = some (done.reverse ++ extra, rest) := by
  rw [longLiteral?.eq_def]
  simp [h]

theorem longLiteral?_char {c : Char} {rest : List Char}
    (hclosing : closing? squote (c :: rest) = none) (hon : goesOn (c :: rest) = true)
    (done : List Char) :
    longLiteral? done (c :: rest) = longLiteral? (c :: done) rest := by
  rw [longLiteral?.eq_def]
  simp [hclosing, hon]

/-- **A string between three single quotes is read as it was written**, up to the closing ones. -/
theorem longLiteral?_append {rest : List Char} (hrest : Stops (· = squote) rest) :
    ∀ {cs : List Char} {run : Nat}, longestRun squote run cs < 3 →
      (∀ c ∈ cs, isPlain c = true ∨ c = '\n') → ∀ done,
        longLiteral? done (cs ++ squote :: squote :: squote :: rest) =
          some (done.reverse ++ cs, rest)
  | [], _, _, _, done => longLiteral?_closing (closing?_replicate (n := 0) (by decide) hrest) done
  | c :: cs, run, hrun, hcs, done => by
    obtain ⟨hc, hcs⟩ := List.forall_mem_cons.mp hcs
    have hread {run : Nat} (hrun : longestRun squote run cs < 3) :
        longLiteral? (c :: done) (cs ++ squote :: squote :: squote :: rest) =
          some (done.reverse ++ c :: cs, rest) := by
      rw [longLiteral?_append hrest hrun hcs, List.reverse_cons, List.append_assoc,
        List.singleton_append]
    by_cases hquote : c = squote
    · subst hquote
      rcases closing?_shortRun hrun hrest with hnone | hsome
      · rw [longestRun_cons_self] at hrun
        exact (longLiteral?_char hnone (goesOn_cons hc _) done).trans (hread hrun)
      · exact longLiteral?_closing hsome done
    · rw [longestRun_cons_of_ne hquote] at hrun
      exact (longLiteral?_char (closing?_of_ne hquote _) (goesOn_cons hc _) done).trans
        (hread (Nat.lt_of_le_of_lt (Nat.le_max_right ..) hrun))

/-! ## Any string -/

/-- Whether `c` is one of the two quotes. -/
def isQuote (c : Char) : Bool := c = dquote || c = squote

theorem Form.plain_of_holds {form : Form} {cs : List Char} (h : form.holds cs = true) :
    ∀ c ∈ cs, isPlain c = true ∨ c = '\n' := by
  intro c hc
  rw [holds.eq_def, Bool.and_eq_true, Bool.not_eq_true', List.any_eq_false] at h
  exact isPlain_or_of_not_isControl (h.1 c hc)

/-- Two quotes do not open a string of several lines. -/
theorem closing?_pair {quote : Char} {rest : List Char} (h : Stops (· = quote) rest) :
    closing? quote (quote :: quote :: rest) = none := by
  cases rest with
  | nil => rfl
  | cons c rest => exact closing?_third (by simpa using stops_cons.mp h) rest

theorem string?_of_closing?_none {s : List Char} (hdouble : closing? dquote s = none)
    (hsingle : closing? squote s = none) : string? s = lineString? s := by
  rw [string?, hdouble, hsingle]

/-- What does not start with a quote is no string. -/
theorem string?_of_not_isQuote {c : Char} (h : isQuote c = false) (rest : List Char) :
    string? (c :: rest) = none := by
  obtain ⟨hdouble, hsingle⟩ : c ≠ dquote ∧ c ≠ squote := by simpa [isQuote] using h
  rw [string?_of_closing?_none (closing?_of_ne hdouble rest) (closing?_of_ne hsingle rest),
    lineString?, if_neg hdouble, if_neg hsingle]

theorem string?_basic (cs : List Char) {rest : List Char} (hrest : Stops (· = dquote) rest) :
    string? (dquote :: (escaped false 0 cs ++ dquote :: rest)) = some (cs, rest) := by
  have hsingle : closing? squote (dquote :: (escaped false 0 cs ++ dquote :: rest)) = none :=
    closing?_of_ne (by decide) _
  have hdouble : closing? dquote (dquote :: (escaped false 0 cs ++ dquote :: rest)) = none := by
    cases cs with
    | nil => exact closing?_pair hrest
    | cons c cs =>
      have hshort : c ≠ dquote ∨ false = false ∨ 2 ≤ 0 := .inr (.inl rfl)
      obtain ⟨w, written, heq, hw⟩ := exists_escaped_cons hshort cs
      rw [heq]
      exact closing?_second hw _
  rw [string?_of_closing?_none hdouble hsingle, lineString?, if_pos rfl]
  refine basic?_escaped ?_ [] rest
  have hlength := length_le_escaped false cs 0
  simp
  omega

theorem string?_literal {cs : List Char} (h : ∀ c ∈ cs, c ≠ squote ∧ isPlain c = true)
    {rest : List Char} (hrest : Stops (· = squote) rest) :
    string? (squote :: (cs ++ squote :: rest)) = some (cs, rest) := by
  have hdouble : closing? dquote (squote :: (cs ++ squote :: rest)) = none :=
    closing?_of_ne (by decide) _
  have hsingle : closing? squote (squote :: (cs ++ squote :: rest)) = none := by
    cases cs with
    | nil => exact closing?_pair hrest
    | cons c cs => exact closing?_second (List.forall_mem_cons.mp h).1.1 _
  rw [string?_of_closing?_none hdouble hsingle, lineString?, if_neg (by decide), if_pos rfl]
  exact literal?_append h [] rest

/-- The line break that stands in front of a string with line breaks does not count. -/
theorem afterBreak_framed {cs body : List Char}
    (h : '\n' ∉ cs → ∀ c ∈ body.head?, isPlain c = true) :
    afterBreak ((if cs.contains '\n' then ['\n'] else []) ++ body) = body := by
  split
  · rfl
  · next hbreak =>
    cases body with
    | nil => rfl
    | cons c body =>
      have hplain : isPlain c = true := h (by simpa using hbreak) c rfl
      rw [List.nil_append, afterBreak, dropBreak?.eq_def]
      split
      · next heq =>
        obtain ⟨rfl, -⟩ := List.cons.inj heq
        cases hplain
      · next heq =>
        obtain ⟨rfl, -⟩ := List.cons.inj heq
        cases hplain
      · rfl

theorem framed_append (quote : Char) (cs body rest : List Char) :
    framed quote cs body ++ rest = quote :: quote :: quote ::
      ((if cs.contains '\n' then ['\n'] else []) ++
        (body ++ quote :: quote :: quote :: rest)) := by
  simp [framed]

theorem exists_closing? (quote : Char) (s : List Char) :
    ∃ found, closing? quote (quote :: quote :: quote :: s) = some found := by
  simp [closing?]

theorem string?_longBasic (cs : List Char) {rest : List Char} (hrest : Stops (· = dquote) rest) :
    string? (framed dquote cs (escaped true 0 cs) ++ rest) = some (cs, rest) := by
  have hbreak : '\n' ∉ cs →
      ∀ c ∈ (escaped true 0 cs ++ dquote :: dquote :: dquote :: rest).head?, isPlain c = true := by
    intro hcs c hc
    cases cs with
    | nil => exact Option.some.inj hc ▸ rfl
    | cons d cs =>
      rcases escaped_cons true 0 d cs with
        ⟨-, -, -, heq⟩ | ⟨code, heq, -⟩ | ⟨-, -, hplain, heq⟩
      all_goals
        rw [heq] at hc
        obtain rfl := Option.some.inj hc
      · rfl
      · rfl
      · exact hplain.resolve_right fun h => hcs (h.2 ▸ List.mem_cons_self)
  obtain ⟨found, hfound⟩ := exists_closing? dquote ((if cs.contains '\n' then ['\n'] else []) ++
    (escaped true 0 cs ++ dquote :: dquote :: dquote :: rest))
  rw [framed_append, string?, hfound]
  simp only [List.drop_succ_cons, List.drop_zero]
  rw [afterBreak_framed hbreak]
  refine longBasic?_escaped hrest ?_ []
  have hlength := length_le_escaped true cs 0
  simp
  omega

theorem string?_longLiteral {cs : List Char} (h : longestRun squote 0 cs < 3)
    (hcs : ∀ c ∈ cs, isPlain c = true ∨ c = '\n') {rest : List Char}
    (hrest : Stops (· = squote) rest) :
    string? (framed squote cs cs ++ rest) = some (cs, rest) := by
  have hbreak : '\n' ∉ cs →
      ∀ c ∈ (cs ++ squote :: squote :: squote :: rest).head?, isPlain c = true := by
    intro hnone c hc
    cases cs with
    | nil => exact Option.some.inj hc ▸ rfl
    | cons d cs =>
      obtain rfl := Option.some.inj hc
      exact (List.forall_mem_cons.mp hcs).1.resolve_right fun h => hnone (h ▸ List.mem_cons_self)
  obtain ⟨found, hfound⟩ := exists_closing? squote ((if cs.contains '\n' then ['\n'] else []) ++
    (cs ++ squote :: squote :: squote :: rest))
  rw [framed_append, string?, closing?_of_ne (by decide), hfound]
  simp only [List.drop_succ_cons, List.drop_zero]
  rw [afterBreak_framed hbreak]
  exact longLiteral?_append hrest h hcs []

/-- A form can always be read again if it has escapes, else if it holds the string. -/
def Form.Fits (form : Form) (cs : List Char) : Prop :=
  form = .basic ∨ form = .longBasic ∨ form.holds cs = true

theorem fits_formOf (cs : List Char) : (formOf cs).Fits cs := by
  rw [formOf]
  cases hfind : [Form.basic, .literal, .longBasic, .longLiteral].find? (·.holds cs) with
  | some form => exact .inr (.inr (List.find?_some (p := fun form => Form.holds form cs) hfind))
  | none =>
    rw [Option.getD_none]
    split
    · exact .inr (.inl rfl)
    · exact .inl rfl

/-- **A string in a form that fits is read as it was written.** -/
theorem string?_write {form : Form} {cs rest : List Char} (h : form.Fits cs)
    (hrest : Stops isQuote rest) : string? (form.write cs ++ rest) = some (cs, rest) := by
  have hdouble : Stops (· = dquote) rest := hrest.mono fun c hc => by rw [isQuote, hc, Bool.true_or]
  have hsingle : Stops (· = squote) rest := hrest.mono fun c hc => by rw [isQuote, hc, Bool.or_true]
  cases form with
  | basic =>
    rw [Form.write, List.cons_append, List.cons_append, List.append_assoc]
    exact string?_basic cs hdouble
  | longBasic => exact string?_longBasic cs hdouble
  | literal =>
    have hholds : Form.literal.holds cs = true := by simpa [Form.Fits] using h
    have hshort : squote ∉ cs ∧ '\n' ∉ cs := by
      simpa [Form.holds] using (Bool.and_eq_true_iff.mp hholds).2
    rw [Form.write, List.cons_append, List.cons_append, List.append_assoc]
    refine string?_literal (fun c hc => ⟨fun h => hshort.1 (h ▸ hc), ?_⟩) hsingle
    exact (Form.plain_of_holds hholds c hc).resolve_right fun h => hshort.2 (h ▸ hc)
  | longLiteral =>
    have hholds : Form.longLiteral.holds cs = true := by simpa [Form.Fits] using h
    have hrun : longestRun squote 0 cs < 3 := of_decide_eq_true (Bool.and_eq_true_iff.mp hholds).2
    exact string?_longLiteral hrun (Form.plain_of_holds hholds) hsingle

/-- **Every string is read as it was written**, whatever characters it has. -/
theorem string?_quote (s : String) {rest : List Char} (hrest : Stops isQuote rest) :
    string? ((quote s).toList ++ rest) = some (s.toList, rest) := by
  rw [quote, String.toList_ofList]
  exact string?_write (fits_formOf s.toList) hrest

end ConsoleLens.Toml
