import ConsoleLens.Decimal.Double

/-!
# Decimal/Shortest — the fewest digits that read back

The decimals that round to a double form an interval, with its ends when the mantissa is even.  The
shortest of them lies on the coarsest grid of powers of ten that has a point in the interval; **of
two points on that grid the nearer is taken, and of two equally near the greater**.
-/

namespace ConsoleLens.Double

/-- Four times the ends and the middle of a double's interval, in units of its exponent's power of
two.  Below the least mantissa of an exponent the doubles lie half as far apart. -/
def ends (x : Double) : Nat × Nat × Nat :=
  let m := x.mantissa
  let low := if m = Nat.pow 2 52 ∧ minExponent < x.exponent then 4 * m - 1 else 4 * m - 2
  (low, 4 * m, 4 * m + 2)

/-- `n · 2 ^ q / 10 ^ k` as a fraction. -/
def onGrid (n : Nat) (q k : Int) : Nat × Nat :=
  let (num, den) := match q with
    | .ofNat e => (n * Nat.pow 2 e, 1)
    | .negSucc e => (n, Nat.pow 2 (e + 1))
  match k with
  | .ofNat e => (num, den * Nat.pow 10 e)
  | .negSucc e => (num * Nat.pow 10 (e + 1), den)

/-- The point of the grid of `10 ^ k` that stands for a double, if one rounds to it. -/
def gridPoint? (x : Double) (k : Int) : Option Nat :=
  let (low, middle, high) := x.ends
  let q := x.exponent - 2
  let (lowNum, den) := onGrid low q k
  let (num, _) := onGrid middle q k
  let (highNum, _) := onGrid high q k
  let fits (p : Nat) : Bool :=
    if x.mantissa % 2 = 0 then lowNum ≤ p * den && p * den ≤ highNum
    else lowNum < p * den && p * den < highNum
  let below := num / den
  let above := below + 1
  match fits below, fits above with
  | true, true => if num - below * den < above * den - num then some below else some above
  | true, false => some below
  | false, true => some above
  | false, false => none

/-- The first grid with a point, tried from `10 ^ k` down, `fuel` grids in all. -/
def firstPoint? (x : Double) (k : Int) : Nat → Option (Nat × Int)
  | 0 => none
  | fuel + 1 =>
    match gridPoint? x k with
    | some p => some (p, k)
    | none => firstPoint? x (k - 1) fuel

/-- The exponent of a power of ten that is above the double. -/
def ceilingExponent (x : Double) : Int :=
  match x.exponent with
  | .ofNat e => digitCount (x.mantissa * Nat.pow 2 e)
  | .negSucc e => digitCount (x.mantissa * Nat.pow 10 (e + 1) / Nat.pow 2 (e + 1)) - (e + 1)

/-- **The decimal with the fewest digits that reads back as a double.**  Seventeen digits always
do, so eighteen grids suffice. -/
def shortest (x : Double) : Decimal :=
  if x.mantissa = 0 then { negative := x.negative, digits := 0 }
  else
    match firstPoint? x x.ceilingExponent 20 with
    | some (p, k) => { negative := x.negative, digits := p, exponent := k }
    | none => { negative := x.negative, digits := 0 }

end ConsoleLens.Double
