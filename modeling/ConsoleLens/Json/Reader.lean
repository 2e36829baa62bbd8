import ConsoleLens.Json.Basic

/-!
# Json/Reader — a value read from its text

The grammar is the strict one: no byte order mark, no leading zero, no trailing comma, no raw
control character in a string, blanks of four kinds.  **What breaks the grammar is refused; what
only cannot be used is read as `unusable`**, so a reader of records may still skip it.
-/

namespace ConsoleLens.Json

/-- How many containers may stand inside each other, the outermost counted. -/
def maxNesting : Nat := 127

namespace Reader

/-- The four blanks between tokens. -/
def isBlank (c : Char) : Bool := c = ' ' || c = '\n' || c = '\t' || c = '\r'

/-- The text from its first token on. -/
def skipBlanks (s : List Char) : List Char := s.dropWhile isBlank

/-! ## Strings -/

/-- A character of a string as it is written: itself, or a code unit in hexadecimal. -/
inductive Piece where
  | char (c : Char)
  | unit (n : Nat)

/-- The character after a backslash, `u` apart. -/
def escaped? : Char → Option Char
  | '"' => some '"'
  | '\\' => some '\\'
  | '/' => some '/'
  | 'b' => some (Char.ofNat 8)
  | 'f' => some (Char.ofNat 12)
  | 'n' => some '\n'
  | 'r' => some '\r'
  | 't' => some '\t'
  | _ => none

/-- The rest of a string after its opening quote: the pieces, last first in `done`, and what follows
the closing quote. -/
def string? (done : List Piece) : List Char → Option (List Piece × List Char)
  | [] => none
  | '"' :: rest => some (done.reverse, rest)
  | '\\' :: 'u' :: a :: b :: c :: d :: rest =>
    match Digits.natural? 16 [a, b, c, d] with
    | some n => string? (.unit n :: done) rest
    | none => none
  | '\\' :: c :: rest =>
    match escaped? c with
    | some e => string? (.char e :: done) rest
    | none => none
  | c :: rest => if c.toNat < 32 then none else string? (.char c :: done) rest

/-- Whether `n` opens a surrogate pair. -/
def isHigh (n : Nat) : Bool := 0xD800 ≤ n && n ≤ 0xDBFF

/-- Whether `n` closes a surrogate pair. -/
def isLow (n : Nat) : Bool := 0xDC00 ≤ n && n ≤ 0xDFFF

/-- The characters that pieces stand for: code units pair up, and none stays alone. -/
def join? (done : List Char) : List Piece → Option (List Char)
  | [] => some done.reverse
  | .char c :: rest => join? (c :: done) rest
  | .unit h :: rest =>
    if isLow h then none
    else if isHigh h then
      match rest with
      | .unit l :: rest =>
        if isLow l then
          join? (Char.ofNat (0x10000 + (h - 0xD800) * 0x400 + (l - 0xDC00)) :: done) rest
        else none
      | _ => none
    else join? (Char.ofNat h :: done) rest

/-- A string with what follows it; the text is missing when it holds half a surrogate pair. -/
def text? (s : List Char) : Option (Option String × List Char) :=
  (string? [] s).map fun (pieces, rest) => ((join? [] pieces).map String.ofList, rest)

/-! ## Numbers -/

/-- A non-empty run of decimal digits and what follows it. -/
def digits? (s : List Char) : Option (List Char × List Char) :=
  match s.takeWhile Digits.isDecimal with
  | [] => none
  | ds => some (ds, s.dropWhile Digits.isDecimal)

/-- The digits before the point: no zero stands in front of another digit. -/
def whole? (s : List Char) : Option (List Char × List Char) :=
  match s with
  | '0' :: rest =>
    match rest with
    | c :: _ => if Digits.isDecimal c then none else some (['0'], rest)
    | [] => some (['0'], [])
  | _ => digits? s

/-- The point and the digits after it, if there is a point. -/
def fraction? (s : List Char) : Option (List Char × List Char) :=
  match s with
  | '.' :: rest => (digits? rest).map fun (ds, rest) => ('.' :: ds, rest)
  | _ => some ([], s)

/-- The exponent with its mark and sign, if there is one. -/
def exponent? (s : List Char) : Option (List Char × List Char) :=
  match s with
  | [] => some ([], [])
  | c :: rest =>
    if c = 'e' ∨ c = 'E' then
      match rest with
      | '+' :: rest => (digits? rest).map fun (ds, rest) => (c :: '+' :: ds, rest)
      | '-' :: rest => (digits? rest).map fun (ds, rest) => (c :: '-' :: ds, rest)
      | rest => (digits? rest).map fun (ds, rest) => (c :: ds, rest)
    else some ([], s)

/-- A number's literal and what follows it. -/
def number? (s : List Char) : Option (List Char × List Char) := do
  let (sign, s) := match s with
    | '-' :: rest => (['-'], rest)
    | _ => ([], s)
  let (whole, s) ← whole? s
  let (fraction, s) ← fraction? s
  let (exponent, s) ← exponent? s
  return (sign ++ whole ++ fraction ++ exponent, s)

/-! ## Values -/

/-- A container that stands inside `open` others. -/
def nested (opened : Nat) (j : Json) : Json := if opened < maxNesting then j else .unusable

mutual

/-- A value and what follows it, inside `opened` containers; `fuel` bounds the tokens. -/
def value? (fuel opened : Nat) (s : List Char) : Option (Json × List Char) :=
  match fuel with
  | 0 => none
  | fuel + 1 =>
    match skipBlanks s with
    | 'n' :: 'u' :: 'l' :: 'l' :: rest => some (.null, rest)
    | 't' :: 'r' :: 'u' :: 'e' :: rest => some (.bool true, rest)
    | 'f' :: 'a' :: 'l' :: 's' :: 'e' :: rest => some (.bool false, rest)
    | '"' :: rest => (text? rest).map fun (t, rest) => (t.elim .unusable .string, rest)
    | '[' :: rest =>
      match skipBlanks rest with
      | ']' :: rest => some (nested opened (.array []), rest)
      | rest => (items? fuel (opened + 1) rest).map fun (items, rest) =>
          (nested opened (.array items), rest)
    | '{' :: rest =>
      match skipBlanks rest with
      | '}' :: rest => some (nested opened (.object []), rest)
      | rest => (members? fuel (opened + 1) rest).map fun (members, rest) =>
          (nested opened (members.elim .unusable .object), rest)
    | s => (number? s).map fun (literal, rest) => (.number (String.ofList literal), rest)

/-- The items of an array up to its closing bracket. -/
def items? (fuel opened : Nat) (s : List Char) : Option (List Json × List Char) :=
  match fuel with
  | 0 => none
  | fuel + 1 =>
    match value? fuel opened s with
    | none => none
    | some (j, rest) =>
      match skipBlanks rest with
      | ']' :: rest => some ([j], rest)
      | ',' :: rest => (items? fuel opened rest).map fun (items, rest) => (j :: items, rest)
      | _ => none

/-- The members of an object up to its closing brace, missing when a name cannot be used. -/
def members? (fuel opened : Nat) (s : List Char) :
    Option (Option (List (String × Json)) × List Char) :=
  match fuel with
  | 0 => none
  | fuel + 1 =>
    match skipBlanks s with
    | '"' :: rest =>
      match text? rest with
      | none => none
      | some (name, rest) =>
        match skipBlanks rest with
        | ':' :: rest =>
          match value? fuel opened rest with
          | none => none
          | some (j, rest) =>
            match skipBlanks rest with
            | '}' :: rest => some (name.map fun n => [(n, j)], rest)
            | ',' :: rest =>
              (members? fuel opened rest).map fun (members, rest) =>
                (name.bind fun n => members.map ((n, j) :: ·), rest)
            | _ => none
        | _ => none
    | _ => none

end

end Reader

/-- **The value that a text holds**, blanks around it apart. -/
def read? (text : String) : Option Json :=
  let s := text.toList
  match Reader.value? (2 * s.length + 2) 0 s with
  | some (j, rest) => if (Reader.skipBlanks rest).isEmpty then some j else none
  | none => none

end ConsoleLens.Json
