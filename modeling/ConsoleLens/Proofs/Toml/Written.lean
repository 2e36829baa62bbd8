import ConsoleLens.Proofs.Toml.Quoted
import ConsoleLens.Toml.Document

/-!
# Proofs/Toml/Written — lines written in a configuration text, and read again

A value stands up to the end of its line, or closes with the quote or bracket that it opened with,
so **a text spells a value whatever follows its line** (`Spells`): truth values, naturals, strings
and lists of strings do.  The items of a list stand on lines of their own, with fill in front that
counts for nothing (`items?_itemLines`).

From that, a line is read as what it was written for, whatever lines follow (`Reads`), be it a value
for a name (`reads_lineOf`) or a header (`reads_header`), and **the lines of a text are those that
it is made of** (`lines?_join`).
-/

namespace ConsoleLens.Toml

open Text

/-! ## Between the tokens -/

/-- Whether `c` stands between tokens, or starts what does. -/
def isFill (c : Char) : Bool := isSpace c || c = '\n' || c = '\r' || c = '#'

theorem dropFill?_of_stops {s : List Char} (h : Stops isFill s) : dropFill? false s = some s := by
  cases s with
  | nil => rfl
  | cons c rest =>
    have hc := stops_cons.mp h
    simp only [isFill, Bool.or_eq_false_iff, decide_eq_false_iff_not] at hc
    obtain ⟨⟨⟨hspace, hbreak⟩, hreturn⟩, hcomment⟩ := hc
    have hlone : isLoneReturn (c :: rest) = false := by
      unfold isLoneReturn
      split
      · rfl
      · next heq => exact absurd (List.cons.inj heq).1 hreturn
      · rfl
    simp [dropFill?, hbreak, hlone, hreturn, hspace, hcomment]

/-- What is no fill is no blank. -/
theorem stops_isSpace {s : List Char} (h : Stops isFill s) : Stops isSpace s :=
  h.mono fun c hc => by simp [isFill, hc]

theorem dropFill?_break (rest : List Char) :
    dropFill? false ('\n' :: rest) = dropFill? false rest :=
  if_pos rfl

theorem dropFill?_space (rest : List Char) :
    dropFill? false (' ' :: rest) = dropFill? false rest := by
  simp [dropFill?, isLoneReturn, isSpace]

/-! ## Values -/

theorem value?_of_string? {s cs rest : List Char} (h : string? s = some (cs, rest))
    (fuel opened : Nat) : value? (fuel + 1) opened s = some (.string (String.ofList cs), rest) := by
  unfold value?
  split
  · next rest' => rw [string?_of_not_isQuote rfl] at h; cases h
  · next rest' => rw [string?_of_not_isQuote rfl] at h; cases h
  · rw [h]

theorem value?_quote (s : String) {rest : List Char} (hrest : Stops isQuote rest)
    (fuel opened : Nat) :
    value? (fuel + 1) opened ((quote s).toList ++ rest) = some (.string s, rest) := by
  rw [value?_of_string? (string?_quote s hrest), String.ofList_toList]

/-- **A scalar is read up to the end of its line.** -/
theorem value?_scalar {token : List Char} {v : Toml} (hne : token ≠ [])
    (htoken : ∀ c ∈ token, inScalar c = true) (hv : ofScalar? token = some v) (rest : List Char)
    (fuel opened : Nat) :
    value? (fuel + 1) opened (token ++ '\n' :: rest) = some (v, '\n' :: rest) := by
  have hrest : Stops inScalar ('\n' :: rest) := stops_cons.mpr rfl
  have htake : takeScalar (token ++ '\n' :: rest) = (token, '\n' :: rest) := by
    simp only [takeScalar, takeWhile_append_of_stops htoken hrest,
      dropWhile_append_of_stops htoken hrest]
    rfl
  have hscalar : scalar? (token ++ '\n' :: rest) = some (v, '\n' :: rest) := by
    simp only [scalar?, htake, hv, Option.map_some]
  obtain ⟨c, cs, rfl⟩ := List.exists_cons_of_ne_nil hne
  have hc : inScalar c = true := htoken c List.mem_cons_self
  have hother {d : Char} (hd : inScalar d = false) : c ≠ d := ne_of_kind hc hd
  have hquote : isQuote c = false := by
    rw [isQuote, decide_eq_false (hother rfl), decide_eq_false (hother rfl), Bool.or_false]
  unfold value?
  split
  · next heq => exact absurd (List.cons.inj heq).1 (hother rfl)
  · next heq => exact absurd (List.cons.inj heq).1 (hother rfl)
  · rw [List.cons_append, string?_of_not_isQuote hquote]
    exact hscalar

theorem value?_boolText (b : Bool) (rest : List Char) (fuel opened : Nat) :
    value? (fuel + 1) opened ((if b then "true" else "false").toList ++ '\n' :: rest) =
      some (.boolean b, '\n' :: rest) := by
  cases b with
  | true => exact value?_scalar (by decide) (List.all_eq_true.mp rfl) rfl rest fuel opened
  | false => exact value?_scalar (by decide) (List.all_eq_true.mp rfl) rfl rest fuel opened

/-- Digits in base ten hold no other character. -/
theorem ne_of_mem_decimal {n : Nat} {c d : Char} (h : c ∈ Digits.decimal n)
    (hd : Digits.isDecimal d = false) : c ≠ d :=
  ne_of_kind (Digits.isDecimal_of_mem_decimal h) hd

theorem unbounded?_decimal (n : Nat) : unbounded? (Digits.decimal n) = some (n : Int) := by
  have hwhole : whole? (Digits.decimal n) = some n := by
    have hzero : hasLeadingZero (Digits.decimal n) = false := by
      rcases Digits.decimal_eq_zero_or n with heq | hhead
      · rw [heq]
        rfl
      · unfold hasLeadingZero
        split
        · next heq => exact absurd (congrArg List.head? heq) hhead
        · rfl
    have hsplit : Text.split '_' (Digits.decimal n) = [Digits.decimal n] :=
      Text.split_of_notMem fun h => ne_of_mem_decimal h rfl rfl
    have hne : Digits.decimal n ≠ [] := Nat.toDigits_ne_nil
    rw [whole?, hzero, if_neg (by decide), grouped?, ungrouped?, hsplit]
    simp only [List.any_cons, List.any_nil, List.isEmpty_eq_false_iff.mpr hne, List.flatten_cons,
      List.flatten_nil, List.append_nil, Bool.or_false, Bool.false_eq_true, if_false,
      Option.bind_some]
    exact Digits.decimal?_decimal n
  have hsign : splitSign (Digits.decimal n) = (false, Digits.decimal n) := by
    unfold splitSign
    split
    · next heq => exact absurd rfl (ne_of_mem_decimal (heq ▸ List.mem_cons_self) rfl)
    · next heq => exact absurd rfl (ne_of_mem_decimal (heq ▸ List.mem_cons_self) rfl)
    · rfl
  have hbase {c d : Char} {ds : List Char} (heq : Digits.decimal n = c :: d :: ds)
      (hd : Digits.isDecimal d = false) : False :=
    ne_of_mem_decimal (heq ▸ List.mem_cons_of_mem c List.mem_cons_self) hd rfl
  unfold unbounded?
  split
  · next heq => exact (hbase heq rfl).elim
  · next heq => exact (hbase heq rfl).elim
  · next heq => exact (hbase heq rfl).elim
  · simp [hsign, hwhole]

theorem ofScalar?_decimal {n : Nat} (h : n < Nat.pow 2 128) :
    ofScalar? (Digits.decimal n) = some (.integer n) := by
  have hword {w : List Char} {c : Char} (hw : c ∈ w) (hc : Digits.isDecimal c = false) :
      Digits.decimal n ≠ w := fun heq => ne_of_mem_decimal (heq ▸ hw) hc rfl
  have hinteger : integer? (Digits.decimal n) = some (n : Int) := by
    rw [integer?, unbounded?_decimal, Option.filter_some, if_pos]
    exact decide_eq_true ⟨by omega, Int.ofNat_lt.mpr h⟩
  have htrue : 't' ∈ "true".toList := by decide
  have hfalse : 'f' ∈ "false".toList := by decide
  rw [ofScalar?, if_neg (hword htrue rfl), if_neg (hword hfalse rfl), hinteger]

theorem value?_decimal {n : Nat} (h : n < Nat.pow 2 128) (rest : List Char) (fuel opened : Nat) :
    value? (fuel + 1) opened (Digits.decimal n ++ '\n' :: rest) =
      some (.integer n, '\n' :: rest) := by
  refine value?_scalar Nat.toDigits_ne_nil (fun c hc => ?_) (ofScalar?_decimal h) rest fuel opened
  have hdigit : c.isDigit = true := Nat.isDigit_of_mem_toDigits (by decide) (by decide) hc
  simp [inScalar, Char.isAlphanum, hdigit]

/-! ## Lists -/

/-- A string is written with a quote in front. -/
theorem exists_quote_eq_cons (s : String) :
    ∃ c cs, (quote s).toList = c :: cs ∧ isQuote c = true := by
  rw [quote, String.toList_ofList]
  cases formOf s.toList with
  | basic => exact ⟨_, _, rfl, rfl⟩
  | literal => exact ⟨_, _, rfl, rfl⟩
  | longBasic => exact ⟨_, _, rfl, rfl⟩
  | longLiteral => exact ⟨_, _, rfl, rfl⟩

theorem stops_quote (s : String) (rest : List Char) : Stops isFill ((quote s).toList ++ rest) := by
  obtain ⟨c, cs, hquote, hc⟩ := exists_quote_eq_cons s
  rw [hquote]
  rcases (by simpa [isQuote] using hc : c = dquote ∨ c = squote) with rfl | rfl
  · exact stops_cons.mpr rfl
  · exact stops_cons.mpr rfl

/-- **A string is the first item**, whatever fill stands in front of it. -/
theorem items?_quote {s rest : List Char} (item : String)
    (hs : dropFill? false s = some ((quote item).toList ++ rest)) (hrest : Stops isQuote rest)
    (fuel opened : Nat) :
    items? (fuel + 2) opened s =
      match dropFill? false rest with
      | some (',' :: more) =>
        (items? (fuel + 1) opened more).map fun (items, rest) => (.string item :: items, rest)
      | some (']' :: more) => some ([.string item], more)
      | _ => none := by
  obtain ⟨c, cs, hquote, hc⟩ := exists_quote_eq_cons item
  have hvalue := value?_quote item hrest fuel opened
  rw [hquote, List.cons_append] at hs hvalue
  rw [items?, hs]
  split
  · next heq => cases heq
  · next heq =>
    obtain ⟨rfl, -⟩ := List.cons.inj (Option.some.inj heq)
    cases hc
  · next heq =>
    obtain rfl := Option.some.inj heq
    exact hvalue ▸ rfl

theorem dropFill?_quote (item : String) (rest : List Char) :
    dropFill? false ((quote item).toList ++ rest) = some ((quote item).toList ++ rest) :=
  dropFill?_of_stops (stops_quote item rest)

/-- The items of a list, each on a line of its own. -/
def itemLines (items : List String) : List Char :=
  items.flatMap fun item => [' ', ' ', ' ', ' '] ++ (quote item).toList ++ [',', '\n']

theorem itemLines_cons (item : String) (items : List String) (rest : List Char) :
    itemLines (item :: items) ++ rest = ' ' :: ' ' :: ' ' :: ' ' ::
      ((quote item).toList ++ ',' :: '\n' :: (itemLines items ++ rest)) := by
  simp [itemLines]

/-- Items on lines of their own are read up to the bracket after them. -/
theorem items?_itemLines (rest : List Char) (opened : Nat) {items : List String} {fuel : Nat}
    {s : List Char} (hfuel : items.length < fuel)
    (hs : dropFill? false s = dropFill? false (itemLines items ++ ']' :: rest)) :
    items? fuel opened s = some (items.map .string, rest) := by
  induction items generalizing fuel s with
  | nil =>
    obtain ⟨fuel, rfl⟩ := Nat.exists_eq_add_one_of_ne_zero (Nat.ne_zero_of_lt hfuel)
    rw [items?, hs]
    rfl
  | cons item items ih =>
    rw [List.length_cons] at hfuel
    obtain ⟨fuel, rfl⟩ := Nat.exists_eq_add_of_le' (Nat.lt_of_le_of_lt (Nat.le_add_left 1 _) hfuel)
    have hitem : dropFill? false s = some ((quote item).toList ++
        ',' :: '\n' :: (itemLines items ++ ']' :: rest)) := by
      rw [hs, itemLines_cons]
      simp only [dropFill?_space, dropFill?_quote]
    have hread : items? (fuel + 1) opened ('\n' :: (itemLines items ++ ']' :: rest)) =
        some (items.map .string, rest) :=
      ih (Nat.lt_of_succ_lt_succ hfuel) (dropFill?_break _)
    rw [items?_quote item hitem (stops_cons.mpr rfl), dropFill?_of_stops (stops_cons.mpr rfl)]
    simp only [hread, Option.map_some, List.map_cons]

theorem length_le_itemLines (items : List String) : items.length ≤ (itemLines items).length := by
  induction items with
  | nil => exact Nat.le_refl 0
  | cons item items ih =>
    simp only [itemLines, List.flatMap_cons, List.length_append, List.length_cons] at ih ⊢
    omega

theorem value?_bracket {s rest : List Char} {vs : List Toml} {fuel opened : Nat}
    (hopened : opened < maxNesting) (hs : items? fuel (opened + 1) s = some (vs, rest)) :
    value? (fuel + 1) opened ('[' :: s) = some (.array false vs, rest) := by
  rw [value?, if_neg (Nat.not_le_of_lt hopened), hs, Option.map_some]

/-- **A list is read as it was written.** -/
theorem value?_listOf (items : List String) {rest : List Char} {fuel opened : Nat}
    (hopened : opened < maxNesting) (hfuel : (listOf items).toList.length ≤ fuel) :
    value? (fuel + 1) opened ((listOf items).toList ++ rest) =
      some (.array false (items.map .string), rest) := by
  rcases items with _ | ⟨item, _ | ⟨item', items⟩⟩
  · obtain ⟨fuel, rfl⟩ := Nat.exists_eq_add_of_le' hfuel
    exact value?_bracket hopened rfl
  · have hlist : (listOf [item]).toList = '[' :: ((quote item).toList ++ [']']) := by simp [listOf]
    rw [hlist] at hfuel ⊢
    rw [List.length_cons, List.length_append] at hfuel
    obtain ⟨fuel, rfl⟩ := Nat.exists_eq_add_of_le'
      (Nat.le_trans (Nat.succ_le_succ (Nat.le_add_left 1 _)) hfuel)
    rw [List.cons_append, List.append_assoc]
    refine value?_bracket hopened ?_
    have hstops : Stops isQuote (']' :: rest) := stops_cons.mpr rfl
    exact (items?_quote item (dropFill?_quote item _) hstops fuel _).trans rfl
  · have hlist : (listOf (item :: item' :: items)).toList =
        '[' :: '\n' :: (itemLines (item :: item' :: items) ++ [']']) := by
      simp [listOf, itemLines, String.toList_join, List.flatMap_map]
    -- from here on it does not matter how many items there are
    generalize item :: item' :: items = items at hlist hfuel ⊢
    have hlength : items.length < fuel := by
      have hlines := length_le_itemLines items
      rw [hlist] at hfuel
      simp only [List.length_cons, List.length_append, List.length_nil] at hfuel
      omega
    rw [hlist, List.cons_append, List.cons_append, List.append_assoc]
    exact value?_bracket hopened (items?_itemLines rest _ hlength (dropFill?_break _))

/-! ## Texts of values -/

/-- A text is read as a value up to the end of its line. -/
structure Spells (text : String) (v : Toml) : Prop where
  front : Stops isSpace text.toList
  read : ∀ {fuel : Nat} (rest : List Char), text.toList.length < fuel →
    value? fuel 0 (text.toList ++ '\n' :: rest) = some (v, '\n' :: rest)

theorem spells_of_value? {text : String} {v : Toml} (hfront : Stops isSpace text.toList)
    (hread : ∀ fuel rest, value? (fuel + 1) 0 (text.toList ++ '\n' :: rest) =
      some (v, '\n' :: rest)) : Spells text v := by
  refine ⟨hfront, fun rest hfuel => ?_⟩
  obtain ⟨fuel, rfl⟩ := Nat.exists_eq_add_one_of_ne_zero (Nat.ne_zero_of_lt hfuel)
  exact hread fuel rest

theorem spells_boolText (b : Bool) : Spells (if b then "true" else "false") (.boolean b) :=
  spells_of_value? (by cases b <;> exact stops_cons.mpr rfl)
    fun fuel rest => value?_boolText b rest fuel 0

theorem spells_decimal {n : Nat} (h : n < Nat.pow 2 128) :
    Spells (String.ofList (Digits.decimal n)) (.integer n) := by
  refine spells_of_value? ?_ fun fuel rest => ?_
  · intro c hc
    rw [String.toList_ofList] at hc
    have hmem := List.mem_of_mem_head? hc
    simp [isSpace, ne_of_mem_decimal hmem (d := ' ') rfl, ne_of_mem_decimal hmem (d := '\t') rfl]
  · rw [String.toList_ofList]
    exact value?_decimal h rest fuel 0

theorem spells_quote (s : String) : Spells (quote s) (.string s) := by
  refine spells_of_value? ?_ fun fuel rest => value?_quote s (stops_cons.mpr rfl) fuel 0
  exact stops_isSpace (List.append_nil (quote s).toList ▸ stops_quote s [])

theorem spells_listOf (items : List String) :
    Spells (listOf items) (.array false (items.map .string)) where
  front := by
    match items with
    | [] => exact stops_cons.mpr rfl
    | [item] => simp [listOf, Stops, isSpace]
    | item :: item' :: items => simp [listOf, Stops, isSpace]
  read rest hfuel := by
    obtain ⟨fuel, rfl⟩ := Nat.exists_eq_add_one_of_ne_zero (Nat.ne_zero_of_lt hfuel)
    exact value?_listOf items (by decide) (Nat.le_of_lt_succ hfuel)

/-! ## Lines -/

/-- Whether a name needs no quotes. -/
def isBareName (name : String) : Bool := !name.toList.isEmpty && name.toList.all inBareName

theorem isBareName_iff {name : String} :
    isBareName name = true ↔ name.toList ≠ [] ∧ ∀ c ∈ name.toList, inBareName c = true := by
  simp [isBareName]

theorem key?_of_isBareName {name : String} (h : isBareName name = true) {rest : List Char}
    (hrest : Stops inBareName rest) (hpoint : Stops (· = '.') (rest.dropWhile isSpace))
    (fuel : Nat) :
    key? (fuel + 1) (name.toList ++ rest) = some (⟨[], name⟩, rest.dropWhile isSpace) := by
  obtain ⟨hne, hall⟩ := isBareName_iff.mp h
  have hname : name? (name.toList ++ rest) = some (name, rest) := by
    rw [name?, takeWhile_append_of_stops hall hrest, dropWhile_append_of_stops hall hrest]
    split
    · next heq => exact absurd heq hne
    · rw [String.ofList_toList]
  rw [key?, hname]
  simp only []
  split
  · next heq =>
    rw [heq] at hpoint
    cases stops_cons.mp hpoint
  · rfl

/-- The byte order mark, which may stand in front of a text. -/
def mark : Char := Char.ofNat 0xFEFF

/-- A text is read as a line of its own, whatever lines follow; no mark stands in front of it. -/
structure Reads (text : String) (line : Line) : Prop where
  front : ∃ c cs, text.toList = c :: cs ∧ c ≠ mark
  read : ∀ (fuel : Nat) (rest : List Char),
    linesFrom? (fuel + 1) (text.toList ++ rest) = (linesFrom? fuel rest).map (line :: ·)

theorem linesFrom?_of_line? {s cs rest : List Char} {c : Char} {line : Line}
    (hs : dropFill? false s = some (c :: cs)) (hline : line? (c :: cs) = some (line, '\n' :: rest))
    (fuel : Nat) : linesFrom? (fuel + 1) s = (linesFrom? fuel rest).map (line :: ·) := by
  rw [linesFrom?, hs]
  simp only [hline, dropLineEnd?, if_true]

/-- Lines are read one after another. -/
theorem linesFrom?_flatMap {texts : List String} {lines : List Line}
    (h : List.Forall₂ Reads texts lines) {fuel : Nat} (hfuel : texts.length < fuel) :
    linesFrom? fuel (texts.flatMap String.toList) = some lines := by
  induction h generalizing fuel with
  | nil =>
    obtain ⟨fuel, rfl⟩ := Nat.exists_eq_add_one_of_ne_zero (Nat.ne_zero_of_lt hfuel)
    rfl
  | cons hline _ ih =>
    obtain ⟨fuel, rfl⟩ := Nat.exists_eq_add_one_of_ne_zero (Nat.ne_zero_of_lt hfuel)
    rw [List.flatMap_cons, hline.read, ih (Nat.lt_of_succ_lt_succ hfuel), Option.map_some]

/-- **The lines of a text are those that it is made of.** -/
theorem lines?_join {texts : List String} {lines : List Line}
    (h : List.Forall₂ Reads texts lines) : lines? (String.join texts).toList = some lines := by
  have hdrop : dropMark (texts.flatMap String.toList) = texts.flatMap String.toList := by
    cases h with
    | nil => rfl
    | cons hline _ =>
      obtain ⟨c, cs, heq, hc⟩ := hline.front
      rw [List.flatMap_cons, heq]
      exact if_neg hc
  have hlength : texts.length ≤ (texts.flatMap String.toList).length := by
    clear hdrop
    induction h with
    | nil => exact Nat.le_refl 0
    | cons hline _ ih =>
      obtain ⟨c, cs, heq, -⟩ := hline.front
      rw [List.flatMap_cons, heq]
      simp only [List.length_append, List.length_cons]
      omega
  rw [String.toList_join, lines?, hdrop]
  exact linesFrom?_flatMap h (Nat.lt_succ_of_le hlength)

theorem stops_bareName {c : Char} (h : inBareName c = true) (cs : List Char) :
    Stops isFill (c :: cs) := by
  have hne {d : Char} (hd : inBareName d = false) : c ≠ d := ne_of_kind h hd
  simp only [stops_cons, isFill, isSpace, Bool.or_eq_false_iff, decide_eq_false_iff_not]
  exact ⟨⟨⟨⟨hne rfl, hne rfl⟩, hne rfl⟩, hne rfl⟩, hne rfl⟩

theorem exists_eq_cons_of_isBareName {name : String} (h : isBareName name = true) :
    ∃ c cs, name.toList = c :: cs ∧ inBareName c = true := by
  obtain ⟨hne, hall⟩ := isBareName_iff.mp h
  obtain ⟨c, cs, heq⟩ := List.exists_cons_of_ne_nil hne
  exact ⟨c, cs, heq, hall c (heq ▸ List.mem_cons_self)⟩

/-- **A line that gives a value to a name is read as that.** -/
theorem reads_lineOf {name text : String} {v : Toml} (hname : isBareName name = true)
    (h : Spells text v) : Reads (lineOf name text) (.pair ⟨[], name⟩ v) where
  front := by
    obtain ⟨c, cs, hcons, hc⟩ := exists_eq_cons_of_isBareName hname
    have hline : (lineOf name text).toList = c :: (cs ++ (" = " ++ text ++ "\n").toList) := by
      simp [lineOf, hcons]
    exact ⟨c, _, hline, ne_of_kind hc rfl⟩
  read fuel rest := by
    obtain ⟨c, cs, hcons, hc⟩ := exists_eq_cons_of_isBareName hname
    have hline : (lineOf name text).toList ++ rest =
        name.toList ++ ' ' :: '=' :: ' ' :: (text.toList ++ '\n' :: rest) := by simp [lineOf]
    have hkey (fuel : Nat) : key? (fuel + 1)
        (name.toList ++ ' ' :: '=' :: ' ' :: (text.toList ++ '\n' :: rest)) =
          some (⟨[], name⟩, '=' :: ' ' :: (text.toList ++ '\n' :: rest)) :=
      key?_of_isBareName hname (stops_cons.mpr rfl) (stops_cons.mpr rfl) fuel
    have hvalue : (' ' :: (text.toList ++ '\n' :: rest)).dropWhile isSpace =
        text.toList ++ '\n' :: rest :=
      dropWhile_of_stops (h.front.append (stops_cons.mpr rfl))
    rw [hline]
    rw [hcons, List.cons_append] at hkey ⊢
    refine linesFrom?_of_line? (dropFill?_of_stops (stops_bareName hc _)) ?_ fuel
    unfold line?
    split
    · next heq => exact absurd (List.cons.inj heq).1 (ne_of_kind hc rfl)
    · next heq => exact absurd (List.cons.inj heq).1 (ne_of_kind hc rfl)
    · rw [List.length_cons, hkey]
      simp only [hvalue]
      rw [h.read rest (by simp; omega), Option.map_some]

/-- The header of one more table of an array, after an empty line. -/
def header (name : String) : String := "\n[[" ++ name ++ "]]\n"

/-- **A header is read as that.** -/
theorem reads_header {name : String} (hname : isBareName name = true) :
    Reads (header name) (.tables ⟨[], name⟩) where
  front := by
    have hline : (header name).toList = '\n' :: ("[[" ++ name ++ "]]\n").toList := by simp [header]
    exact ⟨_, _, hline, by decide⟩
  read fuel rest := by
    have hline : (header name).toList ++ rest =
        '\n' :: '[' :: '[' :: (name.toList ++ ']' :: ']' :: '\n' :: rest) := by simp [header]
    have hkey (fuel : Nat) : key? (fuel + 1) (name.toList ++ ']' :: ']' :: '\n' :: rest) =
        some (⟨[], name⟩, ']' :: ']' :: '\n' :: rest) :=
      key?_of_isBareName hname (stops_cons.mpr rfl) (stops_cons.mpr rfl) fuel
    rw [hline]
    have hstops : Stops isFill ('[' :: '[' :: (name.toList ++ ']' :: ']' :: '\n' :: rest)) :=
      stops_cons.mpr rfl
    refine linesFrom?_of_line? ((dropFill?_break _).trans (dropFill?_of_stops hstops)) ?_ fuel
    obtain ⟨c, cs, hcons, hc⟩ := exists_eq_cons_of_isBareName hname
    rw [hcons, List.cons_append] at hkey ⊢
    have hspace : (c :: (cs ++ ']' :: ']' :: '\n' :: rest)).dropWhile isSpace =
        c :: (cs ++ ']' :: ']' :: '\n' :: rest) :=
      dropWhile_of_stops (stops_isSpace (stops_bareName hc _))
    rw [line?, header?, hspace, List.length_cons, hkey]
    rfl

end ConsoleLens.Toml
