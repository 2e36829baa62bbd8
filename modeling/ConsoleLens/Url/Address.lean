import ConsoleLens.Text.Digits
import ConsoleLens.Text.Split

/-!
# Url/Address — numeric hosts

A domain whose last label is a number is an address of version 4 or nothing.  An address of version
6 stands in brackets: eight pieces of four hexadecimal digits, of which one run of zeros may be left
out and the last two may be written as an address of version 4.
-/

namespace ConsoleLens.Url

/-! ## Version 4 -/

/-- A number of an address: hexadecimal after `0x`, octal after `0`. -/
def addressNumber? : List Char → Option Nat
  | [] => none
  | ['0', x] =>
    if x = 'x' ∨ x = 'X' then some 0 else Digits.natural? 8 [x]
  | '0' :: c :: rest =>
    if c = 'x' ∨ c = 'X' then Digits.natural? 16 rest else Digits.natural? 8 (c :: rest)
  | cs => Digits.natural? 10 cs

/-- The labels of a domain, less an empty last one. -/
def labels (domain : List Char) : List (List Char) :=
  let parts := Text.split '.' domain
  if parts.length > 1 ∧ parts.getLast? = some [] then parts.dropLast else parts

/-- Whether a domain has to be an address: its last label is a number. -/
def endsInNumber (domain : List Char) : Bool :=
  match (labels domain).getLast? with
  | none => false
  | some label =>
    (!label.isEmpty && label.all Digits.isDecimal) || (addressNumber? label).isSome

/-- Whether a domain is an address: up to four numbers, all but the last within a byte and the last
within what is left of the word. -/
def isAddress4 (domain : List Char) : Bool :=
  match (labels domain).mapM addressNumber? with
  | none => false
  | some numbers =>
    numbers.length ≤ 4 && numbers.dropLast.all (· ≤ 255) &&
      (match numbers.getLast? with
        | none => false
        | some last => last < Nat.pow 256 (5 - numbers.length))

/-! ## Version 6 -/

/-- Whether a text is one to three digits of a byte, without a zero in front. -/
def isByte (cs : List Char) : Bool :=
  match cs with
  | '0' :: _ :: _ => false
  | _ => (Digits.decimal? cs).any (· ≤ 255)

/-- Whether a text is four bytes between dots. -/
def isDotted (cs : List Char) : Bool :=
  let parts := Text.split '.' cs
  parts.length = 4 && parts.all isByte

/-- Whether a text is a piece: one to four hexadecimal digits. -/
def isPiece (cs : List Char) : Bool := cs.length ≤ 4 && (Digits.natural? 16 cs).isSome

/-- The number of pieces that texts between colons spell, the last of which may be dotted when
`dotted` allows it. -/
def pieceCount? (dotted : Bool) : List (List Char) → Option Nat
  | [] => some 0
  | [last] =>
    if isPiece last then some 1 else if dotted && isDotted last then some 2 else none
  | cs :: rest => if isPiece cs then (pieceCount? dotted rest).map (· + 1) else none

/-- The pieces on one side of the gap: none at all, or some between colons. -/
def sideCount? (dotted : Bool) (cs : List Char) : Option Nat :=
  if cs.isEmpty then some 0 else pieceCount? dotted (Text.split ':' cs)

/-- What stands before the first pair of colons and what stands after it. -/
def splitGap? : List Char → Option (List Char × List Char)
  | [] => none
  | ':' :: ':' :: rest => some ([], rest)
  | c :: rest => (splitGap? rest).map fun (before, after) => (c :: before, after)

/-- **Whether the text between brackets is an address**: eight pieces, or fewer around a gap. -/
def isAddress6 (cs : List Char) : Bool :=
  match splitGap? cs with
  | none => pieceCount? true (Text.split ':' cs) == some 8
  | some (before, after) =>
    match sideCount? false before, sideCount? true after with
    | some m, some n => m + n ≤ 7
    | _, _ => false

end ConsoleLens.Url
