/-!
# Text/Digits — naturals written in a base

A natural is read from a non-empty run of digits and from nothing else: no sign, no separator.
-/

namespace ConsoleLens.Digits

/-- The value of `c` as a digit, with the letters of either case standing for ten and up. -/
def value? (c : Char) : Option Nat :=
  if '0' ≤ c ∧ c ≤ '9' then some (c.toNat - '0'.toNat)
  else if 'a' ≤ c ∧ c ≤ 'z' then some (c.toNat - 'a'.toNat + 10)
  else if 'A' ≤ c ∧ c ≤ 'Z' then some (c.toNat - 'A'.toNat + 10)
  else none

/-- The value of `c` as a digit of `base`. -/
def digit? (base : Nat) (c : Char) : Option Nat :=
  (value? c).filter (· < base)

/-- Whether `c` is one of the ten decimal digits. -/
def isDecimal (c : Char) : Bool := '0' ≤ c && c ≤ '9'

/-- **A natural in `base`**: at least one digit, and digits only. -/
def natural? (base : Nat) : List Char → Option Nat
  | [] => none
  | cs => cs.foldlM (fun n c => (digit? base c).map (base * n + ·)) 0

/-- A natural in base ten. -/
def decimal? (cs : List Char) : Option Nat := natural? 10 cs

/-- The decimal digits of `n`. -/
def decimal (n : Nat) : List Char := Nat.toDigits 10 n

/-- The hexadecimal digits of `n`, in lower case. -/
def hex (n : Nat) : List Char := Nat.toDigits 16 n

/-- `cs` with zeros in front, `width` characters at least. -/
def padded (width : Nat) (cs : List Char) : List Char :=
  List.replicate (width - cs.length) '0' ++ cs

end ConsoleLens.Digits
