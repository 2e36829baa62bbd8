import ConsoleLens.Decimal.Double
import ConsoleLens.Text.Split
import ConsoleLens.Toml.Value

/-!
# Toml/Scalar — truth values, numbers and dates

An underscore may stand between two digits.  A whole number has no zero in front, or the mark of its
base there and no sign; it fits a word of 128 bits.  A date, a time, or both may be given, with
seconds or without, and an offset after both.
-/

namespace ConsoleLens.Toml

/-- Whether a number may hold `c`, or a date, or a word. -/
def inScalar (c : Char) : Bool :=
  c.isAlphanum || c = '+' || c = '-' || c = '_' || c = '.' || c = ':'

/-! ## Digits -/

/-- Digits without the underscores between them; an underscore stands between two digits. -/
def ungrouped? (cs : List Char) : Option (List Char) :=
  let parts := Text.split '_' cs
  if parts.any (·.isEmpty) then none else some parts.flatten

/-- A natural in a base, underscores between its digits. -/
def grouped? (base : Nat) (cs : List Char) : Option Nat :=
  (ungrouped? cs).bind (Digits.natural? base)

/-- A sign and what follows it. -/
def splitSign (cs : List Char) : Bool × List Char :=
  match cs with
  | '-' :: rest => (true, rest)
  | '+' :: rest => (false, rest)
  | _ => (false, cs)

/-- Whether digits have a zero in front of others. -/
def hasLeadingZero : List Char → Bool
  | '0' :: _ :: _ => true
  | _ => false

/-- A natural in base ten without a zero in front. -/
def whole? (cs : List Char) : Option Nat :=
  if hasLeadingZero cs then none else grouped? 10 cs

/-! ## Numbers -/

/-- A whole number without regard to its range. -/
def unbounded? (cs : List Char) : Option Int :=
  match cs with
  | '0' :: 'x' :: ds => (grouped? 16 ds).map Int.ofNat
  | '0' :: 'o' :: ds => (grouped? 8 ds).map Int.ofNat
  | '0' :: 'b' :: ds => (grouped? 2 ds).map Int.ofNat
  | cs =>
    let (negative, ds) := splitSign cs
    (whole? ds).map fun n => if negative then -(n : Int) else n

/-- **A whole number** that fits a word of 128 bits, signed or not. -/
def integer? (cs : List Char) : Option Int :=
  (unbounded? cs).filter fun n => -(Nat.pow 2 127 : Int) ≤ n ∧ n < Nat.pow 2 128

/-- An exponent after its mark. -/
def floatExponent? (cs : List Char) : Option Int :=
  let (negative, ds) := splitSign cs
  (grouped? 10 ds).map fun n => if negative then -(n : Int) else n

/-- A number with a point or an exponent, without its sign. -/
def unsignedFloat? (cs : List Char) : Option Decimal := do
  let isMark (c : Char) : Bool := c = 'e' || c = 'E'
  let plain := cs.takeWhile (!isMark ·)
  let exponent ← match cs.dropWhile (!isMark ·) with
    | [] => some none
    | _ :: e => (floatExponent? e).map some
  match Text.split '.' plain with
  | [w] =>
    let w ← whole? w
    let e ← exponent
    return { digits := w, exponent := e }
  | [w, f] =>
    let _ ← whole? w
    let f ← ungrouped? f
    let w ← ungrouped? w
    let digits ← Digits.decimal? (w ++ f)
    let _ ← Digits.decimal? f
    return { digits, exponent := exponent.getD 0 - f.length }
  | _ => none

/-- **Whether a text is a number with a point** that a double can hold, or a special one. -/
def isFloat (cs : List Char) : Bool :=
  let (_, body) := splitSign cs
  if body = ['i', 'n', 'f'] ∨ body = ['n', 'a', 'n'] then true
  else ((unsignedFloat? body).bind Double.ofDecimal?).isSome

/-! ## Dates -/

/-- A natural of exactly `width` digits. -/
def fixed? (width : Nat) (cs : List Char) : Option Nat :=
  if cs.length = width then Digits.decimal? cs else none

/-- The number of days of a month. -/
def daysIn (year month : Nat) : Nat :=
  if month = 2 then
    if year % 4 = 0 ∧ (year % 100 ≠ 0 ∨ year % 400 = 0) then 29 else 28
  else if month = 4 ∨ month = 6 ∨ month = 9 ∨ month = 11 then 30
  else 31

/-- Whether a text is a year, a month and a day. -/
def isDate (cs : List Char) : Bool :=
  match (Text.split '-' cs) with
  | [y, m, d] =>
    match fixed? 4 y, fixed? 2 m, fixed? 2 d with
    | some y, some m, some d => 1 ≤ m && m ≤ 12 && 1 ≤ d && d ≤ daysIn y m
    | _, _, _ => false
  | _ => false

/-- Whether a text is a number of two digits up to a limit. -/
def isUpTo (limit : Nat) (cs : List Char) : Bool := (fixed? 2 cs).any (· ≤ limit)

/-- Whether a text is a second, with a fraction maybe. -/
def isSecond (cs : List Char) : Bool :=
  match Text.split '.' cs with
  | [s] => isUpTo 60 s
  | [s, f] => isUpTo 60 s && (Digits.decimal? f).isSome
  | _ => false

/-- Whether a text is a time of day. -/
def isTime (cs : List Char) : Bool :=
  match Text.split ':' cs with
  | [h, m] => isUpTo 23 h && isUpTo 59 m
  | [h, m, s] => isUpTo 23 h && isUpTo 59 m && isSecond s
  | _ => false

/-- Whether a text is an offset of hours and minutes. -/
def isOffset (cs : List Char) : Bool :=
  match Text.split ':' cs with
  | [h, m] => isUpTo 23 h && isUpTo 59 m
  | _ => false

/-- Whether a text is a time of day with an offset maybe. -/
def isZonedTime (cs : List Char) : Bool :=
  let isMark (c : Char) : Bool := c = '+' || c = '-' || c = 'Z' || c = 'z'
  let time := cs.takeWhile (!isMark ·)
  isTime time &&
    match cs.dropWhile (!isMark ·) with
    | [] => true
    | c :: offset => if c = 'Z' ∨ c = 'z' then offset.isEmpty else isOffset offset

/-- Whether `c` parts a date from a time. -/
def isDateMark (c : Char) : Bool := c = 'T' || c = 't' || c = ' '

/-- **Whether a text is a date, a time, or both.** -/
def isDateTime (cs : List Char) : Bool :=
  isDate cs || isTime cs ||
    (isDate (cs.take 10) &&
      match cs.drop 10 with
      | c :: time => isDateMark c && isZonedTime time
      | [] => false)

/-! ## Any of them -/

/-- The scalar at the front of a text and what follows it: a time after a date may stand behind a
space. -/
def takeScalar (s : List Char) : List Char × List Char :=
  let token := s.takeWhile inScalar
  let rest := s.dropWhile inScalar
  match rest with
  | ' ' :: c :: _ =>
    if isDate token && Digits.isDecimal c then
      let time := (rest.drop 1).takeWhile inScalar
      (token ++ ' ' :: time, (rest.drop 1).dropWhile inScalar)
    else (token, rest)
  | _ => (token, rest)

/-- The value of a scalar. -/
def ofScalar? (cs : List Char) : Option Toml :=
  if cs = "true".toList then some (.boolean true)
  else if cs = "false".toList then some (.boolean false)
  else
    match integer? cs with
    | some n => some (.integer n)
    | none => if isFloat cs then some .float else if isDateTime cs then some .date else none

/-- **A truth value, a number or a date with what follows it.** -/
def scalar? (s : List Char) : Option (Toml × List Char) :=
  let (token, rest) := takeScalar s
  (ofScalar? token).map fun v => (v, rest)

end ConsoleLens.Toml
