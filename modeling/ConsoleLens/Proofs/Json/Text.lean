import ConsoleLens.Json.Printer
import ConsoleLens.Proofs.Json.Number

/-!
# Proofs/Json/Text — values printed, and read back

Reading goes along the text, so each part of a value is read in front of what follows it:

    value? (render j ++ rest) = (j, rest)

A string is read as pieces, each of which stands for one character (`string?_escape`); a number ends
where nothing goes on with it.  Of the two limits of the reader the fuel is never felt, since every
step takes a character at least, and the other one is real: **a value is read back from its text
exactly when no more containers stand inside each other than may be open** (`read?_render_iff`).
-/

namespace ConsoleLens.Json

mutual

/-- **Every number of a value is spelled as one.** -/
def Spelled : Json → Prop
  | .number literal => IsLiteral literal.toList
  | .array items => ItemsSpelled items
  | .object members => MembersSpelled members
  | .null => True
  | .bool _ => True
  | .string _ => True
  | .unusable => True

/-- Every number of the items is spelled as one. -/
def ItemsSpelled : List Json → Prop
  | [] => True
  | j :: rest => Spelled j ∧ ItemsSpelled rest

/-- Every number of the members is spelled as one. -/
def MembersSpelled : List (String × Json) → Prop
  | [] => True
  | (_, j) :: rest => Spelled j ∧ MembersSpelled rest

end

mutual

/-- **How many containers of a value stand inside each other.** -/
def nesting : Json → Nat
  | .array items => itemsNesting items + 1
  | .object members => membersNesting members + 1
  | .null => 0
  | .bool _ => 0
  | .number _ => 0
  | .string _ => 0
  | .unusable => 0

/-- How many containers of an item stand inside each other, at most. -/
def itemsNesting : List Json → Nat
  | [] => 0
  | j :: rest => max (nesting j) (itemsNesting rest)

/-- How many containers of a member stand inside each other, at most. -/
def membersNesting : List (String × Json) → Nat
  | [] => 0
  | (_, j) :: rest => max (nesting j) (membersNesting rest)

end

namespace Reader

open Text

/-! ## Strings -/

/-- A piece stands for a character. -/
def Stands (p : Piece) (c : Char) : Prop :=
  ∀ done rest, join? done (p :: rest) = join? (c :: done) rest

theorem stands_char (c : Char) : Stands (.char c) c := fun _ _ => rfl

/-- A code unit that is no half of a pair stands for its character. -/
theorem stands_unit {c : Char} (h : c.toNat < 32) : Stands (.unit c.toNat) c := by
  intro done rest
  have hlow : isLow c.toNat = false := by simp [isLow]; omega
  have hhigh : isHigh c.toNat = false := by simp [isHigh]; omega
  rw [join?.eq_def]
  simp [hlow, hhigh]

/-- The code of a control character is four digits. -/
theorem natural?_code {c : Char} (h : c.toNat < 32) :
    ∃ a b d e, Digits.padded 4 (Digits.hex c.toNat) = [a, b, d, e] ∧
      Digits.natural? 16 [a, b, d, e] = some c.toNat := by
  have hall : ∀ n < 32, (Digits.padded 4 (Digits.hex n)).length = 4 ∧
      Digits.natural? 16 (Digits.padded 4 (Digits.hex n)) = some n := by decide +kernel
  obtain ⟨hlength, hread⟩ := hall c.toNat h
  obtain ⟨a, b, d, e, hcode⟩ := List.length_eq_four.mp hlength
  exact ⟨a, b, d, e, hcode, hcode ▸ hread⟩

/-- **A character is read as a piece that stands for it.** -/
theorem string?_escape (c : Char) : ∃ p, Stands p c ∧
    ∀ done rest, string? done (escape c ++ rest) = string? (p :: done) rest := by
  unfold escape
  split_ifs with h₁ h₂ h₃ h₄ h₅ h₆ h₇ h₈
  iterate 7 exact ⟨.char c, stands_char c, fun _ _ => by subst_vars; rfl⟩
  · obtain ⟨a, b, d, e, hcode, hread⟩ := natural?_code h₈
    refine ⟨.unit c.toNat, stands_unit h₈, fun done rest => ?_⟩
    rw [hcode]
    simp [string?, hread]
  · refine ⟨.char c, stands_char c, fun done rest => ?_⟩
    rw [List.singleton_append, string?.eq_def]
    simp [h₂, h₈]

/-- **A string is read as it was printed**, up to its closing quote. -/
theorem string?_escapes (cs rest : List Char) : ∃ pieces,
    (∀ done, join? done pieces = some (done.reverse ++ cs)) ∧
      ∀ done, string? done (cs.flatMap escape ++ '"' :: rest) =
        some (done.reverse ++ pieces, rest) := by
  induction cs with
  | nil => exact ⟨[], fun done => by simp [join?], fun done => by simp [string?]⟩
  | cons c cs ih =>
    obtain ⟨pieces, hjoin, hread⟩ := ih
    obtain ⟨p, hp, hc⟩ := string?_escape c
    refine ⟨p :: pieces, fun done => ?_, fun done => ?_⟩
    · rw [hp, hjoin, List.reverse_cons, List.append_assoc, List.singleton_append]
    · rw [List.flatMap_cons, List.append_assoc, hc, hread, List.reverse_cons, List.append_assoc,
        List.singleton_append]

theorem toList_quote (s : String) :
    (quote s).toList = '"' :: (s.toList.flatMap escape ++ ['"']) := by
  rw [quote, String.toList_ofList, List.cons_append]

theorem text?_quote (s : String) (rest : List Char) :
    text? (s.toList.flatMap escape ++ '"' :: rest) = some (some s, rest) := by
  obtain ⟨pieces, hjoin, hread⟩ := string?_escapes s.toList rest
  rw [text?, hread, Option.map_some]
  simp [hjoin]

/-! ## Values -/

/-- The text of items between their brackets. -/
def itemsText (items : List Json) : List Char :=
  [','].intercalate ((renderItems items).map String.toList)

/-- The text of members between their braces. -/
def membersText (members : List (String × Json)) : List Char :=
  [','].intercalate ((renderMembers members).map String.toList)

theorem toList_render_array (items : List Json) :
    (render (.array items)).toList = '[' :: (itemsText items ++ [']']) := by
  simp [render, itemsText, String.toList_intercalate]

theorem toList_render_object (members : List (String × Json)) :
    (render (.object members)).toList = '{' :: (membersText members ++ ['}']) := by
  simp [render, membersText, String.toList_intercalate]

theorem itemsText_singleton (j : Json) : itemsText [j] = (render j).toList := by
  simp [itemsText, renderItems]

theorem itemsText_cons_cons (j k : Json) (rest : List Json) :
    itemsText (j :: k :: rest) = (render j).toList ++ ',' :: itemsText (k :: rest) := by
  simp [itemsText, renderItems]

theorem membersText_singleton (name : String) (j : Json) :
    membersText [(name, j)] = (quote name).toList ++ ':' :: (render j).toList := by
  simp [membersText, renderMembers]

theorem membersText_cons_cons (name : String) (j : Json) (m : String × Json)
    (rest : List (String × Json)) :
    membersText ((name, j) :: m :: rest) =
      (quote name).toList ++ ':' :: ((render j).toList ++ ',' :: membersText (m :: rest)) := by
  simp [membersText, renderMembers]

theorem skipBlanks_cons {c : Char} (h : isBlank c = false) (rest : List Char) :
    skipBlanks (c :: rest) = c :: rest :=
  dropWhile_of_stops (stops_cons.mpr h)

/-- A literal starts with a sign or a digit, and with nothing else. -/
theorem exists_cons_of_isLiteral {cs : List Char} (h : IsLiteral cs) :
    ∃ c ds, cs = c :: ds ∧ isBlank c = false ∧
      ∀ d, d ≠ '-' ∧ Digits.isDecimal d = false → c ≠ d := by
  have hstart {c : Char} (hc : c = '-' ∨ Digits.isDecimal c = true) : isBlank c = false ∧
      ∀ d, d ≠ '-' ∧ Digits.isDecimal d = false → c ≠ d := by
    have hother : ∀ d, d ≠ '-' ∧ Digits.isDecimal d = false → c ≠ d := by
      rintro d hd rfl
      simp [hd] at hc
    exact ⟨by simp [isBlank, hother ' ' (by decide), hother '\n' (by decide),
      hother '\t' (by decide), hother '\r' (by decide)], hother⟩
  obtain ⟨sign, whole, fraction, exponent, hsign, hwhole, -, -, rfl⟩ := h
  rcases hsign with rfl | rfl
  · obtain ⟨c, ds, rfl⟩ := List.exists_cons_of_ne_nil hwhole.1.1
    exact ⟨c, _, rfl, hstart (.inr (hwhole.1.2 c List.mem_cons_self))⟩
  · exact ⟨'-', _, rfl, hstart (.inl rfl)⟩

/-- A value that is spelled as a number is that number. -/
theorem value?_literal {cs rest : List Char} (h : IsLiteral cs) (hrest : Stops inLiteral rest)
    (fuel opened : Nat) :
    value? (fuel + 1) opened (cs ++ rest) = some (.number (String.ofList cs), rest) := by
  have hread := number?_append h hrest
  obtain ⟨c, ds, rfl, hblank, hother⟩ := exists_cons_of_isLiteral h
  rw [List.cons_append] at hread ⊢
  rw [value?, skipBlanks_cons hblank]
  split
  case h_7 => rw [hread, Option.map_some]
  all_goals
    next heq =>
    exact absurd (List.head_eq_of_cons_eq heq) (hother _ (by decide))

/-- A value starts with a character that neither is blank nor closes an array. -/
theorem render_eq_cons {j : Json} (h : j.isUsable = true) (hj : j.Spelled) :
    ∃ c cs, (render j).toList = c :: cs ∧ isBlank c = false ∧ c ≠ ']' := by
  cases j with
  | null => exact ⟨_, _, rfl, rfl, by decide⟩
  | bool b => cases b <;> exact ⟨_, _, rfl, rfl, by decide⟩
  | number literal =>
    obtain ⟨c, ds, hcs, hblank, hother⟩ := exists_cons_of_isLiteral hj
    exact ⟨c, ds, hcs, hblank, hother _ (by decide)⟩
  | string s => exact ⟨'"', _, toList_quote s, rfl, by decide⟩
  | array items => exact ⟨'[', _, toList_render_array items, rfl, by decide⟩
  | object members => exact ⟨'{', _, toList_render_object members, rfl, by decide⟩
  | unusable => cases h

theorem itemsText_eq_cons {j : Json} (h : j.isUsable = true) (hj : j.Spelled) (rest : List Json) :
    ∃ c cs, itemsText (j :: rest) = c :: cs ∧ isBlank c = false ∧ c ≠ ']' := by
  obtain ⟨c, cs, hcs, hc⟩ := render_eq_cons h hj
  cases rest with
  | nil => exact ⟨c, cs, by rw [itemsText_singleton, hcs], hc⟩
  | cons k rest =>
    exact ⟨c, cs ++ ',' :: itemsText (k :: rest),
      by rw [itemsText_cons_cons, hcs, List.cons_append], hc⟩

theorem membersText_eq_cons (m : String × Json) (rest : List (String × Json)) :
    ∃ cs, membersText (m :: rest) = '"' :: cs := by
  obtain ⟨name, j⟩ := m
  cases rest with
  | nil => exact ⟨_, by rw [membersText_singleton, toList_quote, List.cons_append]⟩
  | cons m rest => exact ⟨_, by rw [membersText_cons_cons, toList_quote, List.cons_append]⟩

/-- A value takes at least one step to read. -/
theorem exists_fuel {j : Json} (h : j.isUsable = true) (hj : j.Spelled) {fuel : Nat}
    (hfuel : 2 * (render j).toList.length ≤ fuel) : ∃ n, fuel = n + 1 := by
  obtain ⟨c, cs, hcs, -⟩ := render_eq_cons h hj
  rw [hcs, List.length_cons] at hfuel
  exact ⟨fuel - 1, by omega⟩

mutual

/-- **A value is read as it was printed**, up to where a number in front would end. -/
theorem value?_render : ∀ {j : Json}, j.isUsable = true → j.Spelled →
    ∀ {fuel opened : Nat} {rest : List Char}, opened + j.nesting ≤ maxNesting →
      2 * (render j).toList.length ≤ fuel → Stops inLiteral rest →
        value? fuel opened ((render j).toList ++ rest) = some (j, rest)
  | .null => by
      intro hj hspelled fuel opened rest _ hfuel _
      obtain ⟨fuel, rfl⟩ := exists_fuel hj hspelled hfuel
      rfl
  | .bool b => by
      intro hj hspelled fuel opened rest _ hfuel _
      obtain ⟨fuel, rfl⟩ := exists_fuel hj hspelled hfuel
      cases b <;> rfl
  | .number literal => by
      intro hj hspelled fuel opened rest _ hfuel hrest
      obtain ⟨fuel, rfl⟩ := exists_fuel hj hspelled hfuel
      rw [render, value?_literal hspelled hrest, String.ofList_toList]
  | .string s => by
      intro hj hspelled fuel opened rest _ hfuel _
      obtain ⟨fuel, rfl⟩ := exists_fuel hj hspelled hfuel
      rw [render, toList_quote, List.cons_append, List.append_assoc, List.singleton_append, value?,
        skipBlanks_cons rfl]
      simp only [text?_quote, Option.map_some, Option.elim_some]
  | .array [] => by
      intro hj hspelled fuel opened rest hdeep hfuel _
      obtain ⟨fuel, rfl⟩ := exists_fuel hj hspelled hfuel
      have hopen : opened < maxNesting := hdeep
      rw [toList_render_array, List.cons_append, value?, skipBlanks_cons rfl]
      simp [itemsText, renderItems, skipBlanks, isBlank, nested, hopen]
  | .array (j :: items) => by
      intro hj hspelled fuel opened rest hdeep hfuel _
      obtain ⟨fuel, rfl⟩ := exists_fuel hj hspelled hfuel
      obtain ⟨c, cs, hcs, hblank, hc⟩ := itemsText_eq_cons (Bool.and_eq_true_iff.mp hj).1
        hspelled.1 items
      rw [toList_render_array] at hfuel ⊢
      simp only [nesting, List.length_cons, List.length_append] at hdeep hfuel
      have hopen : opened < maxNesting := by omega
      have hitems : items? fuel (opened + 1) (itemsText (j :: items) ++ ']' :: rest) =
          some (j :: items, rest) :=
        items?_render (List.cons_ne_nil j items) hj hspelled (by omega) (by omega)
      rw [List.cons_append, List.append_assoc, List.singleton_append, value?, skipBlanks_cons rfl]
      rw [hcs, List.cons_append] at hitems ⊢
      simp [skipBlanks_cons hblank, hc, hitems, nested, hopen]
  | .object [] => by
      intro hj hspelled fuel opened rest hdeep hfuel _
      obtain ⟨fuel, rfl⟩ := exists_fuel hj hspelled hfuel
      have hopen : opened < maxNesting := hdeep
      rw [toList_render_object, List.cons_append, value?, skipBlanks_cons rfl]
      simp [membersText, renderMembers, skipBlanks, isBlank, nested, hopen]
  | .object (m :: members) => by
      intro hj hspelled fuel opened rest hdeep hfuel _
      obtain ⟨fuel, rfl⟩ := exists_fuel hj hspelled hfuel
      obtain ⟨cs, hcs⟩ := membersText_eq_cons m members
      rw [toList_render_object] at hfuel ⊢
      simp only [nesting, List.length_cons, List.length_append] at hdeep hfuel
      have hopen : opened < maxNesting := by omega
      have hmembers : members? fuel (opened + 1) (membersText (m :: members) ++ '}' :: rest) =
          some (some (m :: members), rest) :=
        members?_render (List.cons_ne_nil m members) hj hspelled (by omega) (by omega)
      rw [List.cons_append, List.append_assoc, List.singleton_append, value?, skipBlanks_cons rfl]
      rw [hcs, List.cons_append] at hmembers ⊢
      simp [skipBlanks_cons (rfl : isBlank '"' = false), hmembers, nested, hopen]
  | .unusable => by
      intro hj
      cases hj

/-- Items are read as they were printed. -/
theorem items?_render : ∀ {items : List Json}, items ≠ [] → areUsable items = true →
    ItemsSpelled items → ∀ {fuel opened : Nat} {rest : List Char},
      opened + itemsNesting items ≤ maxNesting → 2 * (itemsText items).length + 1 ≤ fuel →
        items? fuel opened (itemsText items ++ ']' :: rest) = some (items, rest)
  | [] => fun hne => absurd rfl hne
  | [j] => by
      intro _ hj hspelled fuel opened rest hdeep hfuel
      obtain ⟨fuel, rfl⟩ : ∃ f, fuel = f + 1 := ⟨fuel - 1, by omega⟩
      rw [itemsText_singleton] at hfuel ⊢
      simp only [itemsNesting] at hdeep
      have hvalue : value? fuel opened ((render j).toList ++ ']' :: rest) = some (j, ']' :: rest) :=
        value?_render (Bool.and_eq_true_iff.mp hj).1 hspelled.1 (by omega) (by omega)
          (stops_cons.mpr rfl)
      rw [items?, hvalue]
      simp only [skipBlanks_cons (rfl : isBlank ']' = false)]
  | j :: k :: items => by
      intro _ hj hspelled fuel opened rest hdeep hfuel
      obtain ⟨fuel, rfl⟩ : ∃ f, fuel = f + 1 := ⟨fuel - 1, by omega⟩
      rw [itemsText_cons_cons] at hfuel ⊢
      simp only [itemsNesting, List.length_append, List.length_cons] at hdeep hfuel
      have hvalue : value? fuel opened
          ((render j).toList ++ ',' :: (itemsText (k :: items) ++ ']' :: rest)) =
            some (j, ',' :: (itemsText (k :: items) ++ ']' :: rest)) :=
        value?_render (Bool.and_eq_true_iff.mp hj).1 hspelled.1 (by omega) (by omega)
          (stops_cons.mpr rfl)
      have hitems : items? fuel opened (itemsText (k :: items) ++ ']' :: rest) =
          some (k :: items, rest) :=
        items?_render (List.cons_ne_nil k items) (Bool.and_eq_true_iff.mp hj).2 hspelled.2
          (by simp only [itemsNesting]; omega) (by omega)
      rw [List.append_assoc, List.cons_append, items?, hvalue]
      simp only [skipBlanks_cons (rfl : isBlank ',' = false), hitems, Option.map_some]

/-- Members are read as they were printed. -/
theorem members?_render : ∀ {members : List (String × Json)}, members ≠ [] →
    membersUsable members = true → MembersSpelled members →
      ∀ {fuel opened : Nat} {rest : List Char},
        opened + membersNesting members ≤ maxNesting → 2 * (membersText members).length + 1 ≤ fuel →
          members? fuel opened (membersText members ++ '}' :: rest) = some (some members, rest)
  | [] => fun hne => absurd rfl hne
  | [(name, j)] => by
      intro _ hj hspelled fuel opened rest hdeep hfuel
      obtain ⟨fuel, rfl⟩ : ∃ f, fuel = f + 1 := ⟨fuel - 1, by omega⟩
      rw [membersText_singleton, toList_quote] at hfuel ⊢
      simp only [membersNesting, List.length_append, List.length_cons] at hdeep hfuel
      have hvalue : value? fuel opened ((render j).toList ++ '}' :: rest) = some (j, '}' :: rest) :=
        value?_render (Bool.and_eq_true_iff.mp hj).1 hspelled.1 (by omega) (by omega)
          (stops_cons.mpr rfl)
      simp only [List.cons_append, List.append_assoc, List.nil_append]
      rw [members?, skipBlanks_cons rfl]
      simp only [text?_quote, skipBlanks_cons (rfl : isBlank ':' = false), hvalue,
        skipBlanks_cons (rfl : isBlank '}' = false), Option.map_some]
  | (name, j) :: m :: members => by
      intro _ hj hspelled fuel opened rest hdeep hfuel
      obtain ⟨fuel, rfl⟩ : ∃ f, fuel = f + 1 := ⟨fuel - 1, by omega⟩
      rw [membersText_cons_cons, toList_quote] at hfuel ⊢
      simp only [membersNesting, List.length_append, List.length_cons] at hdeep hfuel
      have hvalue : value? fuel opened
          ((render j).toList ++ ',' :: (membersText (m :: members) ++ '}' :: rest)) =
            some (j, ',' :: (membersText (m :: members) ++ '}' :: rest)) :=
        value?_render (Bool.and_eq_true_iff.mp hj).1 hspelled.1 (by omega) (by omega)
          (stops_cons.mpr rfl)
      have hmembers : members? fuel opened (membersText (m :: members) ++ '}' :: rest) =
          some (some (m :: members), rest) :=
        members?_render (List.cons_ne_nil m members) (Bool.and_eq_true_iff.mp hj).2 hspelled.2
          (by simp only [membersNesting]; omega) (by omega)
      simp only [List.cons_append, List.append_assoc, List.nil_append]
      rw [members?, skipBlanks_cons rfl]
      simp only [text?_quote, skipBlanks_cons (rfl : isBlank ':' = false), hvalue,
        skipBlanks_cons (rfl : isBlank ',' = false), hmembers, Option.map_some, Option.bind_some]

end

/-! ## What is read -/

/-- A container is read as it is where it may still stand. -/
theorem spelled_nested {opened : Nat} {j : Json}
    (h : j.Spelled ∧ j.nesting ≤ maxNesting - (opened + 1) + 1) :
    (nested opened j).Spelled ∧ (nested opened j).nesting ≤ maxNesting - opened := by
  unfold nested
  split
  · exact ⟨h.1, by omega⟩
  · exact ⟨trivial, Nat.zero_le _⟩

mutual

/-- **What is read has its numbers spelled as such, and no more containers inside each other than
may be open.** -/
theorem spelled_of_value? : ∀ {fuel opened : Nat} {s : List Char} {j : Json} {rest : List Char},
    value? fuel opened s = some (j, rest) → j.Spelled ∧ j.nesting ≤ maxNesting - opened
  | 0, _, _, _, _, h => by cases h
  | fuel + 1, opened, _, _, _, h => by
      rw [value?] at h
      split at h
      · cases h
        exact ⟨trivial, Nat.zero_le _⟩
      · cases h
        exact ⟨trivial, Nat.zero_le _⟩
      · cases h
        exact ⟨trivial, Nat.zero_le _⟩
      · obtain ⟨⟨t, _⟩, -, h⟩ := Option.map_eq_some_iff.mp h
        cases h
        cases t <;> exact ⟨trivial, Nat.zero_le _⟩
      · split at h
        · cases h
          exact spelled_nested ⟨trivial, Nat.le_add_left 1 _⟩
        · obtain ⟨⟨items, _⟩, hitems, h⟩ := Option.map_eq_some_iff.mp h
          cases h
          obtain ⟨hspelled, hdeep⟩ := spelled_of_items? hitems
          exact spelled_nested ⟨hspelled, Nat.succ_le_succ hdeep⟩
      · split at h
        · cases h
          exact spelled_nested ⟨trivial, Nat.le_add_left 1 _⟩
        · obtain ⟨⟨members, _⟩, hmembers, h⟩ := Option.map_eq_some_iff.mp h
          cases h
          cases members with
          | none => exact spelled_nested ⟨trivial, Nat.zero_le _⟩
          | some members =>
            obtain ⟨hspelled, hdeep⟩ := spelled_of_members? hmembers
            exact spelled_nested ⟨hspelled, Nat.succ_le_succ hdeep⟩
      · obtain ⟨⟨literal, _⟩, hliteral, h⟩ := Option.map_eq_some_iff.mp h
        cases h
        refine ⟨?_, Nat.zero_le _⟩
        rw [Spelled, String.toList_ofList]
        exact isLiteral_of_number? hliteral

theorem spelled_of_items? : ∀ {fuel opened : Nat} {s : List Char} {items : List Json}
    {rest : List Char}, items? fuel opened s = some (items, rest) →
      ItemsSpelled items ∧ itemsNesting items ≤ maxNesting - opened
  | 0, _, _, _, _, h => by cases h
  | fuel + 1, opened, _, _, _, h => by
      rw [items?] at h
      split at h
      · cases h
      · next hvalue =>
        obtain ⟨hspelled, hdeep⟩ := spelled_of_value? hvalue
        split at h
        · cases h
          exact ⟨⟨hspelled, trivial⟩, Nat.max_le.mpr ⟨hdeep, Nat.zero_le _⟩⟩
        · obtain ⟨⟨items, _⟩, hitems, h⟩ := Option.map_eq_some_iff.mp h
          cases h
          obtain ⟨hspelled', hdeep'⟩ := spelled_of_items? hitems
          exact ⟨⟨hspelled, hspelled'⟩, Nat.max_le.mpr ⟨hdeep, hdeep'⟩⟩
        · cases h

theorem spelled_of_members? : ∀ {fuel opened : Nat} {s : List Char}
    {members : List (String × Json)} {rest : List Char},
      members? fuel opened s = some (some members, rest) →
        MembersSpelled members ∧ membersNesting members ≤ maxNesting - opened
  | 0, _, _, _, _, h => by cases h
  | fuel + 1, opened, _, _, _, h => by
      rw [members?] at h
      split at h
      · split at h
        · cases h
        · next name _ _ =>
          split at h
          · split at h
            · cases h
            · next hvalue =>
              obtain ⟨hspelled, hdeep⟩ := spelled_of_value? hvalue
              split at h
              · obtain ⟨h, -⟩ := Prod.mk.inj (Option.some.inj h)
                obtain ⟨name, rfl, rfl⟩ := Option.map_eq_some_iff.mp h
                exact ⟨⟨hspelled, trivial⟩, Nat.max_le.mpr ⟨hdeep, Nat.zero_le _⟩⟩
              · obtain ⟨⟨members', _⟩, hmembers, h⟩ := Option.map_eq_some_iff.mp h
                obtain ⟨h, -⟩ := Prod.mk.inj h
                obtain ⟨name, rfl, h⟩ := Option.bind_eq_some_iff.mp h
                obtain ⟨members', rfl, rfl⟩ := Option.map_eq_some_iff.mp h
                obtain ⟨hspelled', hdeep'⟩ := spelled_of_members? hmembers
                exact ⟨⟨hspelled, hspelled'⟩, Nat.max_le.mpr ⟨hdeep, hdeep'⟩⟩
              · cases h
          · cases h
      · cases h

end

end Reader

/-! ## Whole texts -/

theorem read?_eq_some {text : String} {j : Json} :
    read? text = some j ↔ ∃ rest,
      Reader.value? (2 * text.toList.length + 2) 0 text.toList = some (j, rest) ∧
        Reader.skipBlanks rest = [] := by
  simp only [read?]
  cases Reader.value? (2 * text.toList.length + 2) 0 text.toList with
  | none => simp
  | some found =>
    obtain ⟨k, rest⟩ := found
    simp [and_comm]

/-- **A value is the one that its text holds exactly when it is not nested too deeply.** -/
theorem read?_render_iff {j : Json} (h : j.isUsable = true) (hj : j.Spelled) :
    read? j.render = some j ↔ j.nesting ≤ maxNesting := by
  rw [read?_eq_some]
  constructor
  · rintro ⟨rest, hvalue, -⟩
    exact (Reader.spelled_of_value? hvalue).2
  · intro hdeep
    have hvalue : Reader.value? (2 * j.render.toList.length + 2) 0 (j.render.toList ++ []) =
        some (j, []) :=
      Reader.value?_render h hj (by omega) (Nat.le_add_right _ _) (Text.stops_nil _)
    rw [List.append_nil] at hvalue
    exact ⟨[], hvalue, rfl⟩

end ConsoleLens.Json
