import ConsoleLens.Decimal.Shortest
import ConsoleLens.Json.Record

/-!
# Preview/Number — the text of a number

A literal that fits a word stands as it is.  Any other is read as a double: a whole one below the
21st power of ten is written out exactly, the rest with the fewest digits, and **none with an
exponent**. What no double can hold stays as it is.
-/

namespace ConsoleLens.Preview

/-- A whole double from here on is not written out exactly. -/
def wholeLimit : Nat := Nat.pow 10 21

/-- Whether a literal is a whole number of 64 bits, signed or not. -/
def fitsWord (literal : String) : Bool :=
  match literal.toList with
  | '-' :: ds => (Digits.decimal? ds).any (· ≤ Nat.pow 2 63)
  | ds => (Digits.decimal? ds).any (· ≤ Json.maxWord)

/-- The text of a double. -/
def doubleText (x : Double) : String :=
  match x.whole? with
  | some n =>
    if n < wholeLimit then
      String.ofList (Decimal.positional { negative := x.negative && n ≠ 0, digits := n })
    else String.ofList x.shortest.positional
  | none => String.ofList x.shortest.positional

/-- **The text of a number.** -/
def numberText (literal : String) : String :=
  if fitsWord literal then literal
  else
    match (Decimal.ofLiteral? literal).bind Double.ofDecimal? with
    | some x => doubleText x
    | none => literal

end ConsoleLens.Preview
