import ConsoleLens.Decimal.Basic

/-!
# Decimal/Double — the nearest double of a decimal

A double is a mantissa of at most 53 bits times a power of two not below the 1074th negative one.  A
decimal goes to the nearest one, **a tie to the even mantissa**; past the largest there is none.
-/

namespace ConsoleLens

/-- The number `mantissa · 2 ^ exponent`, or its negative. -/
structure Double where
  negative : Bool := false
  mantissa : Nat
  exponent : Int
  deriving DecidableEq

namespace Double

/-- The exponent of the smallest doubles. -/
def minExponent : Int := -1074

/-- The exponent of the largest doubles. -/
def maxExponent : Int := 971

/-- A quotient rounded to the nearest whole number, a tie to the even one. -/
def roundDiv (num den : Nat) : Nat :=
  let q := num / den
  let r := num % den
  if 2 * r < den then q
  else if den < 2 * r then q + 1
  else if q % 2 = 0 then q else q + 1

/-- The fraction `num / den` divided by a power of two. -/
def unscale (num den : Nat) (q : Int) : Nat × Nat :=
  match q with
  | .ofNat k => (num, den * Nat.pow 2 k)
  | .negSucc k => (num * Nat.pow 2 (k + 1), den)

/-- The exponent of the greatest power of two that is not above `num / den`. -/
def magnitude (num den : Nat) : Int :=
  let e : Int := (Nat.log2 num : Int) - Nat.log2 den
  let (n, d) := unscale num den e
  if n < d then e - 1 else e

/-- **The double nearest to `num / den`**, for a positive fraction; missing when it is too large. -/
def ofFraction? (negative : Bool) (num den : Nat) : Option Double :=
  let q := max minExponent (magnitude num den - 52)
  let (n, d) := unscale num den q
  let m := roundDiv n d
  let (m, q) := if m = Nat.pow 2 53 then (Nat.pow 2 52, q + 1) else (m, q)
  if q ≤ maxExponent then some ⟨negative, m, q⟩ else none

/-- The zero of a sign. -/
def zero (negative : Bool) : Double := ⟨negative, 0, minExponent⟩

/-- The number of decimal digits of `n`. -/
def digitCount (n : Nat) : Int := (Digits.decimal n).length

/-- **The double nearest to a decimal.**  What is far out of range is not computed. -/
def ofDecimal? (d : Decimal) : Option Double :=
  if d.digits = 0 then some (zero d.negative)
  else if digitCount d.digits + d.exponent > 310 then none
  else if digitCount d.digits + d.exponent < -330 then some (zero d.negative)
  else
    match d.exponent with
    | .ofNat k => ofFraction? d.negative (d.digits * Nat.pow 10 k) 1
    | .negSucc k => ofFraction? d.negative d.digits (Nat.pow 10 (k + 1))

/-- The magnitude of a double as a whole number, if it is one. -/
def whole? (x : Double) : Option Nat :=
  match x.exponent with
  | .ofNat k => some (x.mantissa * Nat.pow 2 k)
  | .negSucc k =>
    let unit := Nat.pow 2 (k + 1)
    if x.mantissa % unit = 0 then some (x.mantissa / unit) else none

end Double

end ConsoleLens
