import ConsoleLens.Proofs.SourceMap.Line
import ConsoleLens.Proofs.SourceMap.Spelling

/-!
# Proofs/SourceMap/Headroom — no sum of the decoder leaves its word

A digit is added to what its group has spelled so far, below it or, for the thirteenth digit, in the
four bits that the shift leaves of it:

    0 ≤ spelled < 32 ^ k,  k < 12     spelled + digit · 32 ^ k  <  32 ^ (k + 1)
    0 ≤ spelled < 32 ^ 12             -2 ^ 63  ≤  spelled + word (digit · 32 ^ 12)  <  2 ^ 63

so a number that is read is at most `2 ^ 62`, either way.  Of the sums that run through a text, each
one that a segment changes is an index again before the next segment is looked at
(`Reaches.isIndex`), or reading stops there.  **`decode_headroom` says that the arithmetic of the
decoder never leaves its words**, whatever the text.
-/

namespace ConsoleLens

/-! ## Digits -/

namespace Vlq

/-- A result of arithmetic on words, if there is room for it in one. -/
def held? (n : Int) : Option Int := if Fits n then some n else none

/-- Reading digits by sums and negations that may not leave their words: nothing comes of a segment
for which one does.  The shift of a digit drops what is above the word. -/
def strictFrom? (value : Int) (shift : Nat) : List Char → Option (Except Fault (List Int))
  | [] => some (if shift = 0 then .ok [] else .error .truncated)
  | c :: rest =>
    match digitValue? c with
    | none => some (.error (.invalidDigit c))
    | some d =>
      if shift > 60 then some (.error .overflow)
      else do
        let sum ← held? (value + word ((d % 32 * Nat.pow 2 shift : Nat) : Int))
        if d < 32 then
          let number ← if sum % 2 = 1 then held? (-(sum / 2)) else some (sum / 2)
          return (← strictFrom? 0 0 rest).map (number :: ·)
        else strictFrom? sum (shift + 5) rest

/-- **The numbers of a segment, unless a sum or a negation leaves its word.** -/
def decodeStrictly? (segment : List Char) : Option (Except Fault (List Int)) :=
  strictFrom? 0 0 segment

theorem held?_of_fits {n : Int} (h : Fits n) : held? n = some n := if_pos h

theorem fits_word (n : Int) : Fits (word n) := by
  have hhalf : Nat.pow 2 64 = 2 ^ 64 := rfl
  have hlow := Int.le_bmod (x := n) (m := 2 ^ 64) (by decide)
  have hhigh := Int.bmod_lt (x := n) (m := 2 ^ 64) (by decide)
  rw [Fits, word, hhalf]
  omega

theorem word_of_fits {n : Int} (h : Fits n) : word n = n := by
  have hhalf : Nat.pow 2 64 = 2 ^ 64 := rfl
  obtain ⟨hlow, hhigh⟩ := h
  rw [word, hhalf]
  exact Int.bmod_eq_of_le (by omega) (by omega)

/-- What is left of a word without its lowest bit can be negated. -/
theorem signed_mem {n : Int} (h : Fits n) : -2 ^ 62 ≤ signed n ∧ signed n ≤ 2 ^ 62 := by
  obtain ⟨hlow, hhigh⟩ := h
  unfold signed
  split <;> omega

/-- **A digit is added without leaving the word**, and below the thirteenth one it is added above
what is there. -/
theorem fits_add {value : Int} {k : Nat} (hvalue : 0 ≤ value ∧ value < 32 ^ k) (hk : k ≤ 12)
    (d : Nat) : Fits (value + word ((d % 32 * 2 ^ (5 * k) : Nat) : Int)) ∧ (k < 12 →
      0 ≤ value + word ((d % 32 * 2 ^ (5 * k) : Nat) : Int) ∧
      value + word ((d % 32 * 2 ^ (5 * k) : Nat) : Int) < 32 ^ (k + 1)) := by
  have hd : d % 32 < 32 := Nat.mod_lt d (by decide)
  generalize d % 32 = low at hd
  rw [two_pow_mul]
  rcases hk.lt_or_eq with hk | rfl
  · have hpow : 32 ^ (k + 1) ≤ 32 ^ 12 := Nat.pow_le_pow_right (by decide) hk
    have hcast : ((32 ^ k : Nat) : Int) = 32 ^ k := by push_cast; rfl
    have hlow : low * 32 ^ k ≤ 31 * 32 ^ k := Nat.mul_le_mul_right _ (by omega)
    have hword := word_natCast (n := low * 32 ^ k) (by omega)
    rw [hword, Fits]
    omega
  · -- what the shift leaves of the digit is a multiple of `32 ^ 12` between the ends of the word
    have hwidth : low * 32 ^ 12 < 2 ^ 65 := by omega
    have hfits := fits_word ((low * 32 ^ 12 : Nat) : Int)
    refine ⟨?_, fun h => absurd h (lt_irrefl 12)⟩
    unfold Fits at hfits ⊢
    rcases word_natCast_or hwidth with ⟨-, hword⟩ | ⟨-, hword | hword⟩ <;> rw [hword] at hfits ⊢ <;>
      omega

/-- Where a group is full, nothing is added any more. -/
theorem strictFrom?_of_full {shift : Nat} (h : 60 < shift) (value : Int) (segment : List Char) :
    strictFrom? value shift segment = some (decodeFrom value shift segment) := by
  cases segment with
  | nil => rfl
  | cons c rest =>
    unfold strictFrom? decodeFrom
    cases digitValue? c with
    | none => rfl
    | some d => simp only [gt_iff_lt, h, if_true]

/-- Where no group is open, nothing is spelled yet. -/
theorem zero_mem_room : (0 : Int) ≤ 0 ∧ (0 : Int) < 32 ^ 0 := by decide

/-- **Digits are read without leaving the word.** -/
theorem strictFrom?_eq {segment : List Char} : ∀ {value : Int} {k : Nat},
    0 ≤ value ∧ value < 32 ^ k → k ≤ 12 →
      strictFrom? value (5 * k) segment = some (decodeFrom value (5 * k) segment) := by
  induction segment with
  | nil => exact fun _ _ => rfl
  | cons c rest ih =>
    intro value k hvalue hk
    unfold strictFrom? decodeFrom
    cases digitValue? c with
    | none => rfl
    | some d =>
      obtain ⟨hfits, hopen⟩ := fits_add hvalue hk d
      have hroom : ¬ 5 * k > 60 := by omega
      change Fits (value + word ((d % 32 * Nat.pow 2 (5 * k) : Nat) : Int)) at hfits
      simp only [hroom, if_false, held?_of_fits hfits, word_of_fits hfits, Option.bind_eq_bind,
        Option.bind_some]
      by_cases hends : d < 32
      · have hrest : strictFrom? 0 0 rest = some (decodeFrom 0 0 rest) :=
          ih zero_mem_room (Nat.zero_le 12)
        have hhalf : Fits (-((value + word ((d % 32 * Nat.pow 2 (5 * k) : Nat) : Int)) / 2)) := by
          unfold Fits at hfits ⊢
          omega
        simp only [hends, if_true, held?_of_fits hhalf, hrest, Option.bind_some]
        unfold signed
        split <;> rfl
      · simp only [hends, if_false]
        rcases hk.lt_or_eq with hk | rfl
        · exact ih (hopen hk) hk
        · exact strictFrom?_of_full (by decide) _ rest

/-- A number that is read is the word of a group without its lowest bit. -/
theorem mem_of_decode {segment : List Char} {fields : List Int} (h : decode segment = .ok fields) :
    ∀ v ∈ fields, -2 ^ 62 ≤ v ∧ v ≤ 2 ^ 62 := by
  obtain ⟨groups, hcut⟩ := exists_isCut h
  obtain rfl := Except.ok.inj (h.symm.trans hcut.decode_eq)
  exact List.forall_mem_map.mpr fun g _ => signed_mem (fits_word (spelled g))

/-- Both ends are numbers of thirteen digits. -/
example : decode "ggggggggggggIhgggggggggggI".toList = .ok [-2 ^ 62, 2 ^ 62] := by decide +kernel

end Vlq

/-! ## Sums -/

namespace Mapping

/-- **How far the decoder has come in a text**: its sums, the segments left of the line and the
lines left behind it. -/
structure Progress where
  cursor : Cursor
  generated : Int
  segments : List (List Char)
  lines : List (List Char)

namespace Progress

/-- The sums that run, in the order of the fields which they are of. -/
def sums (p : Progress) : List Int :=
  [p.generated, p.cursor.source, p.cursor.line, p.cursor.column, p.cursor.name]

/-- What is added up for a segment: each of its fields to the sum that it is of. -/
def added (p : Progress) (fields : List Int) : List Int :=
  (p.sums.zip fields).map fun pair => pair.1 + pair.2

/-- **The decoder takes the fields of a segment**: there are one, four or five of them, and each sum
that they are added to is an index again. -/
def Takes (p : Progress) (fields : List Int) : Prop :=
  fields.length ∈ [1, 4, 5] ∧ ∀ n ∈ p.added fields, IsIndex n

/-- What is read from here on. -/
def remainder (p : Progress) : Except MapFault (List Mapping × MappingLines) := do
  let (mappings, cursor) ← ofSegments p.cursor p.generated p.segments
  let lines ← ofLines cursor p.lines
  return (mappings, lines)

end Progress

/-- **The decoder comes so far in a text**: it starts before the first line, goes from a segment
whose fields make a mapping to the next one, and from the end of a line to the next line. -/
inductive Reaches (text : List Char) : Progress → Prop
  | start : Reaches text ⟨{}, 0, [], Text.split ';' text⟩
  | segment {cursor cursor' : Cursor} {generated generated' : Int} {segment : List Char}
      {segments lines : List (List Char)} {fields : List Int} {mapping : Mapping} :
      Reaches text ⟨cursor, generated, segment :: segments, lines⟩ →
      Vlq.decode segment = .ok fields →
      ofFields cursor generated fields = .ok (mapping, cursor', generated') →
      Reaches text ⟨cursor', generated', segments, lines⟩
  | line {cursor : Cursor} {generated : Int} {line : List Char} {lines : List (List Char)} :
      Reaches text ⟨cursor, generated, [], line :: lines⟩ →
      Reaches text ⟨cursor, 0, Text.splitNonempty ',' line, lines⟩

variable {text : List Char} {p : Progress} {cursor cursor' : Cursor} {generated generated' : Int}
  {segment : List Char} {segments lines : List (List Char)} {fields : List Int} {mapping : Mapping}

/-! ## One segment -/

theorem index_of_isIndex {n : Int} (h : IsIndex n) : index n = .ok n.toNat :=
  index_eq_ok_iff.mpr ⟨h, rfl⟩

/-- **What one segment changes**: the sums that its fields are added to. -/
theorem ofFields_sums (h : ofFields cursor generated fields = .ok (mapping, cursor', generated'))
    (segments segments' lines lines' : List (List Char)) :
    let p : Progress := ⟨cursor, generated, segments, lines⟩
    p.Takes fields ∧ Progress.sums ⟨cursor', generated', segments', lines'⟩ =
      p.added fields ++ p.sums.drop fields.length := by
  obtain ⟨g, rfl, hg, -, rfl, rfl⟩ | ⟨g, s, l, c, rfl, ⟨hg, hs, hl, hc⟩, -, rfl, rfl⟩ |
    ⟨g, s, l, c, n, rfl, ⟨hg, hs, hl, hc, hn⟩, -, rfl, rfl⟩ := ofFields_cases h
  · simp [Progress.Takes, Progress.added, Progress.sums, hg]
  · simp [Progress.Takes, Progress.added, Progress.sums, hg, hs, hl, hc]
  · simp [Progress.Takes, Progress.added, Progress.sums, hg, hs, hl, hc, hn]

/-- Fields that are taken make a mapping. -/
theorem Progress.Takes.exists_ofFields : ∀ {fields : List Int}, p.Takes fields →
    ∃ r, ofFields p.cursor p.generated fields = .ok r
  | [g], ⟨_, hadded⟩ => by
      simp only [added, sums, List.forall_mem_map, List.zip_cons_cons, List.forall_mem_cons]
        at hadded
      simp only [ofFields, index_of_isIndex hadded.1]
      exact ⟨_, rfl⟩
  | [g, s, l, c], ⟨_, hadded⟩ => by
      simp only [added, sums, List.forall_mem_map, List.zip_cons_cons, List.forall_mem_cons]
        at hadded
      obtain ⟨hg, hs, hl, hc, -⟩ := hadded
      simp only [ofFields, index_of_isIndex hs, index_of_isIndex hl, index_of_isIndex hc,
        index_of_isIndex hg]
      exact ⟨_, rfl⟩
  | [g, s, l, c, n], ⟨_, hadded⟩ => by
      simp only [added, sums, List.forall_mem_map, List.zip_cons_cons, List.forall_mem_cons]
        at hadded
      obtain ⟨hg, hs, hl, hc, hn, -⟩ := hadded
      simp only [ofFields, index_of_isIndex hs, index_of_isIndex hl, index_of_isIndex hc,
        index_of_isIndex hn, index_of_isIndex hg]
      exact ⟨_, rfl⟩
  | [], ⟨hlength, _⟩ | [_, _], ⟨hlength, _⟩ | [_, _, _], ⟨hlength, _⟩ |
    _ :: _ :: _ :: _ :: _ :: _ :: _, ⟨hlength, _⟩ => absurd hlength (by simp)

/-- **An index and a number that is read have room together in a word.** -/
theorem fits_of_mem_added (hp : ∀ n ∈ p.sums, IsIndex n)
    (hfields : ∀ v ∈ fields, -2 ^ 62 ≤ v ∧ v ≤ 2 ^ 62) : ∀ n ∈ p.added fields, Vlq.Fits n := by
  intro n hn
  obtain ⟨⟨a, v⟩, hpair, rfl⟩ := List.mem_map.mp hn
  obtain ⟨ha, hv⟩ := List.of_mem_zip hpair
  have hmax : Json.maxIndex < 2 ^ 62 := by decide
  obtain ⟨hlow, hhigh⟩ := hp a ha
  obtain ⟨hlow', hhigh'⟩ := hfields v hv
  rw [Vlq.Fits]
  omega

/-! ## A whole text -/

/-- **The sums that run are indexes wherever the decoder comes.** -/
theorem Reaches.isIndex (h : Reaches text p) : ∀ n ∈ p.sums, IsIndex n := by
  have hzero : IsIndex 0 := ⟨le_rfl, by decide⟩
  induction h with
  | start => simp [Progress.sums, hzero]
  | segment _ _ hfields ih =>
    obtain ⟨⟨-, hadded⟩, hsums⟩ := ofFields_sums hfields _ _ _ _
    rw [hsums]
    intro n hn
    rcases List.mem_append.mp hn with hn | hn
    · exact hadded n hn
    · exact ih n (List.mem_of_mem_drop hn)
  | line _ ih =>
    rw [Progress.sums, List.forall_mem_cons] at ih ⊢
    exact ⟨hzero, ih.2⟩

/-- What is read from a segment on is its mapping and what is read behind it. -/
theorem remainder_cons (hread : Vlq.decode segment = .ok fields)
    (hfields : ofFields cursor generated fields = .ok (mapping, cursor', generated'))
    (segments lines : List (List Char)) :
    Progress.remainder ⟨cursor, generated, segment :: segments, lines⟩ =
      (Progress.remainder ⟨cursor', generated', segments, lines⟩).map
        fun r => (mapping :: r.1, r.2) := by
  simp only [Progress.remainder, ofSegments, hread, hfields, Except.mapError, bind, Except.bind]
  cases ofSegments cursor' generated' segments with
  | error e => rfl
  | ok r =>
    simp only [pure, Except.pure]
    cases ofLines r.2 lines <;> rfl

/-- What is read from the end of a line on is what is read from the start of the next one. -/
theorem remainder_nil (cursor : Cursor) (generated : Int) (line : List Char)
    (lines : List (List Char)) :
    Progress.remainder ⟨cursor, generated, [], line :: lines⟩ =
      (Progress.remainder ⟨cursor, 0, Text.splitNonempty ',' line, lines⟩).map
        fun r => ([], sort r.1 :: r.2) := by
  simp only [Progress.remainder, ofSegments, ofLines, bind, Except.bind]
  cases ofSegments cursor 0 (Text.splitNonempty ',' line) with
  | error e => rfl
  | ok r =>
    simp only [pure, Except.pure]
    cases ofLines r.2 lines <;> rfl

/-- **Where the decoder comes to, the outcome hangs on what is read from there.** -/
theorem Reaches.decode_eq (h : Reaches text p) : ∃ f, decode text = p.remainder.map f := by
  have hmap {α β γ : Type} (x : Except MapFault α) (f : α → β) (g : β → γ) :
      (x.map f).map g = x.map (g ∘ f) := by cases x <;> rfl
  induction h with
  | start =>
    refine ⟨Prod.snd, ?_⟩
    simp only [Progress.remainder, ofSegments, bind, Except.bind]
    unfold decode
    cases ofLines {} (Text.split ';' text) <;> rfl
  | segment _ hread hfields ih =>
    obtain ⟨f, hf⟩ := ih
    exact ⟨_, by rw [hf, remainder_cons hread hfields, hmap]⟩
  | line _ ih =>
    obtain ⟨f, hf⟩ := ih
    exact ⟨_, by rw [hf, remainder_nil, hmap]⟩

/-- A segment that is not read is what reading stops for. -/
theorem Reaches.decode_of_digits {e : Vlq.Fault}
    (h : Reaches text ⟨cursor, generated, segment :: segments, lines⟩)
    (hread : Vlq.decode segment = .error e) : decode text = .error (.digits e) := by
  obtain ⟨f, hf⟩ := h.decode_eq
  rw [hf]
  simp only [Progress.remainder, ofSegments, hread]
  rfl

/-- Fields that make no mapping are what reading stops for. -/
theorem Reaches.decode_of_fields {e : MapFault}
    (h : Reaches text ⟨cursor, generated, segment :: segments, lines⟩)
    (hread : Vlq.decode segment = .ok fields)
    (hfields : ofFields cursor generated fields = .error e) : decode text = .error e := by
  obtain ⟨f, hf⟩ := h.decode_eq
  rw [hf]
  simp only [Progress.remainder, ofSegments, hread, Except.mapError, bind, Except.bind, hfields]
  rfl

/-- **The arithmetic of the decoder never leaves its words.**  A segment is read by sums and
negations that all have room, and its numbers are `2 ^ 62` at most, either way.  Before each segment
the five sums are indexes, and what is added up for the segment has room, too.  The decoder goes on
with sums that are indexes again, or it stops with an error. -/
theorem decode_headroom (text : List Char) :
    (∀ segment, Vlq.decodeStrictly? segment = some (Vlq.decode segment) ∧
      ∀ fields, Vlq.decode segment = .ok fields → ∀ v ∈ fields, -2 ^ 62 ≤ v ∧ v ≤ 2 ^ 62) ∧
    ∀ p, Reaches text p → (∀ n ∈ p.sums, IsIndex n) ∧
      ∀ segment segments, p.segments = segment :: segments →
        (∀ e, Vlq.decode segment = .error e → decode text = .error (.digits e)) ∧
        ∀ fields, Vlq.decode segment = .ok fields → (∀ n ∈ p.added fields, Vlq.Fits n) ∧
          (¬ p.Takes fields → ∃ e, decode text = .error e) ∧
          (p.Takes fields → ∃ p', Reaches text p' ∧ p'.segments = segments ∧ p'.lines = p.lines ∧
            p'.sums = p.added fields ++ p.sums.drop fields.length) := by
  refine ⟨fun segment => ⟨Vlq.strictFrom?_eq Vlq.zero_mem_room (Nat.zero_le 12),
    fun fields => Vlq.mem_of_decode⟩, ?_⟩
  rintro ⟨cursor, generated, left, lines⟩ h
  refine ⟨h.isIndex, ?_⟩
  rintro segment segments rfl
  refine ⟨fun e => h.decode_of_digits, fun fields hread => ⟨?_, fun hstops => ?_, fun htakes => ?_⟩⟩
  · exact fits_of_mem_added h.isIndex (Vlq.mem_of_decode hread)
  · cases hfields : ofFields cursor generated fields with
    | error e => exact ⟨e, h.decode_of_fields hread hfields⟩
    | ok r => exact absurd (ofFields_sums hfields _ [] _ []).1 hstops
  · obtain ⟨⟨mapping, cursor', generated'⟩, hfields⟩ := htakes.exists_ofFields
    have hsums := (ofFields_sums hfields (segment :: segments) segments lines lines).2
    exact ⟨_, h.segment hread hfields, rfl, rfl, hsums⟩

end Mapping

end ConsoleLens
