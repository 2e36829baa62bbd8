import ConsoleLens.Text.Digits

/-!
# Decimal/Basic — numbers as digits and a power of ten

A decimal is a whole number of units, each a power of ten.  It is read from a literal without loss
and written in positional notation, never with an exponent.
-/

namespace ConsoleLens

/-- The number `digits · 10 ^ exponent`, or its negative. -/
structure Decimal where
  negative : Bool := false
  digits : Nat
  exponent : Int := 0
  deriving DecidableEq

namespace Decimal

/-- A literal's exponent with its sign. -/
def exponent? : List Char → Option Int
  | [] => some 0
  | '+' :: ds => (Digits.decimal? ds).map Int.ofNat
  | '-' :: ds => (Digits.decimal? ds).map fun n => -(n : Int)
  | ds => (Digits.decimal? ds).map Int.ofNat

/-- The number of a literal without its sign. -/
def ofUnsigned? (negative : Bool) (cs : List Char) : Option Decimal := do
  let isMark (c : Char) : Bool := c = 'e' || c = 'E'
  let plain := cs.takeWhile (!isMark ·)
  let exponent ← exponent? ((cs.dropWhile (!isMark ·)).drop 1)
  let whole := plain.takeWhile (· ≠ '.')
  let fraction := (plain.dropWhile (· ≠ '.')).drop 1
  let digits ← Digits.decimal? (whole ++ fraction)
  return { negative, digits, exponent := exponent - fraction.length }

/-- **The number of a literal**: a sign, digits around a point, an exponent. -/
def ofLiteral? (literal : String) : Option Decimal :=
  match literal.toList with
  | '-' :: cs => ofUnsigned? true cs
  | cs => ofUnsigned? false cs

/-- **The number in positional notation**, with zeros where the digits do not reach the point. -/
def positional (d : Decimal) : List Char :=
  let ds := Digits.decimal d.digits
  let body :=
    match d.exponent with
    | .ofNat zeros => ds ++ List.replicate zeros '0'
    | .negSucc n =>
      let places := n + 1
      let ds := Digits.padded (places + 1) ds
      ds.take (ds.length - places) ++ '.' :: ds.drop (ds.length - places)
  if d.negative then '-' :: body else body

end Decimal

end ConsoleLens
