/-!
# SourceMap/Vlq — signed numbers in base64 digits

A number is a group of digits, least significant first.  A digit carries five bits and a sixth one
that says whether the group goes on.  The lowest bit of the whole is the sign.

Numbers are held in words of 64 bits: **a group has thirteen digits at most, and what the thirteenth
shifts past the word is lost**.
-/

namespace ConsoleLens.Vlq

/-- Why a segment cannot be read. -/
inductive Fault where
  | invalidDigit (c : Char)
  | truncated
  | overflow
  deriving DecidableEq

/-- The 64 digits in the order of their values. -/
def alphabet : List Char :=
  "ABCDEFGHIJKLMNOPQRSTUVWXYZabcdefghijklmnopqrstuvwxyz0123456789+/".toList

/-- The value of a digit. -/
def digitValue? (c : Char) : Option Nat :=
  if 'A' ≤ c ∧ c ≤ 'Z' then some (c.toNat - 'A'.toNat)
  else if 'a' ≤ c ∧ c ≤ 'z' then some (c.toNat - 'a'.toNat + 26)
  else if '0' ≤ c ∧ c ≤ '9' then some (c.toNat - '0'.toNat + 52)
  else if c = '+' then some 62
  else if c = '/' then some 63
  else none

/-- The digit with a value below 64. -/
def digitOf (n : Nat) : Char := alphabet.getD n 'A'

/-- The word of 64 bits, read as a signed number, that agrees with `n` in its low bits. -/
def word (n : Int) : Int := n.bmod (Nat.pow 2 64)

/-- The number that a group spells: the lowest bit is its sign. -/
def signed (n : Int) : Int := if n % 2 = 1 then -(n / 2) else n / 2

/-- The numbers of a segment, `value` being what the open group has spelled in its first `shift`
bits. -/
def decodeFrom (value : Int) (shift : Nat) : List Char → Except Fault (List Int)
  | [] => if shift = 0 then .ok [] else .error .truncated
  | c :: rest =>
    match digitValue? c with
    | none => .error (.invalidDigit c)
    | some d =>
      if shift > 60 then .error .overflow
      else
        let value := word (value + word (((d % 32) * Nat.pow 2 shift : Nat) : Int))
        if d < 32 then (decodeFrom 0 0 rest).map (signed value :: ·)
        else decodeFrom value (shift + 5) rest

/-- **The numbers of a segment.** -/
def decode (segment : List Char) : Except Fault (List Int) := decodeFrom 0 0 segment

/-- The digits of a group. -/
def groupOf (n : Nat) : List Char :=
  if n < 32 then [digitOf n] else digitOf (n % 32 + 32) :: groupOf (n / 32)

/-- The group of a number: its magnitude, and its sign in the lowest bit. -/
def encodeNumber (v : Int) : List Char :=
  groupOf (if v < 0 then 2 * v.natAbs + 1 else 2 * v.natAbs)

/-- **The segment of a list of numbers.** -/
def encode (values : List Int) : List Char := values.flatMap encodeNumber

end ConsoleLens.Vlq
