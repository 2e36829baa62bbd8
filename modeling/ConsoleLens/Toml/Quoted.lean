import ConsoleLens.Text.Digits

/-!
# Toml/Quoted — strings between quotes

A string stands between single or double quotes, one or three of them.  Double quotes allow escapes;
three quotes allow line breaks, of which the first one right after the quotes does not count.  Two
quotes may stand next to the closing ones.
-/

namespace ConsoleLens.Toml

/-- The double quote. -/
def dquote : Char := '"'

/-- The single quote. -/
def squote : Char := Char.ofNat 39

/-- Whether a string or a comment may hold `c` as it is: no control character but the tab. -/
def isPlain (c : Char) : Bool := c = '\t' || (32 ≤ c.toNat && c.toNat ≠ 127)

/-- Whether `c` is a blank within a line. -/
def isSpace (c : Char) : Bool := c = ' ' || c = '\t'

/-- What follows a line break, if one is first. -/
def dropBreak? : List Char → Option (List Char)
  | '\n' :: rest => some rest
  | '\r' :: '\n' :: rest => some rest
  | _ => none

/-! ## Escapes -/

/-- The character of a code in hexadecimal, `width` digits long, and what follows it. -/
def coded? (width : Nat) (s : List Char) : Option (Char × List Char) :=
  if s.length < width then none
  else
    match Digits.natural? 16 (s.take width) with
    | none => none
    | some n => if n.isValidChar then some (Char.ofNat n, s.drop width) else none

/-- The character of an escape after its backslash, and what follows it. -/
def escape? : List Char → Option (Char × List Char)
  | 'b' :: rest => some (Char.ofNat 8, rest)
  | 't' :: rest => some ('\t', rest)
  | 'n' :: rest => some ('\n', rest)
  | 'f' :: rest => some (Char.ofNat 12, rest)
  | 'r' :: rest => some ('\r', rest)
  | 'e' :: rest => some (Char.ofNat 27, rest)
  | '"' :: rest => some ('"', rest)
  | '\\' :: rest => some ('\\', rest)
  | 'x' :: rest => coded? 2 rest
  | 'u' :: rest => coded? 4 rest
  | 'U' :: rest => coded? 8 rest
  | _ => none

/-- What follows a backslash at the end of a line: the blanks and line breaks after it do not
count. -/
def dropFold? (s : List Char) : Option (List Char) :=
  (dropBreak? (s.dropWhile isSpace)).map fun rest =>
    rest.dropWhile fun c => isSpace c || c = '\n' || c = '\r'

/-! ## One line -/

/-- A string after its opening single quote, and what follows it. -/
def literal? (done : List Char) : List Char → Option (List Char × List Char)
  | [] => none
  | c :: rest =>
    if c = squote then some (done.reverse, rest)
    else if isPlain c then literal? (c :: done) rest
    else none

/-- A string after its opening double quote, and what follows it; `fuel` bounds the characters. -/
def basic? (done : List Char) (s : List Char) : Nat → Option (List Char × List Char)
  | 0 => none
  | fuel + 1 =>
    match s with
    | [] => none
    | '\\' :: rest =>
      match escape? rest with
      | none => none
      | some (c, rest) => basic? (c :: done) rest fuel
    | c :: rest =>
      if c = dquote then some (done.reverse, rest)
      else if isPlain c then basic? (c :: done) rest fuel
      else none

/-! ## Several lines -/

/-- What follows three quotes, if they are first: up to two more of them belong to the string. -/
def closing? (quote : Char) (s : List Char) : Option (List Char × List Char) :=
  match s with
  | a :: b :: c :: rest =>
    if a = quote ∧ b = quote ∧ c = quote then
      let extra := min 2 (rest.takeWhile (· = quote)).length
      some (List.replicate extra quote, rest.drop extra)
    else none
  | _ => none

/-- Whether a carriage return stands alone. -/
def isLoneReturn : List Char → Bool
  | '\r' :: '\n' :: _ => false
  | '\r' :: _ => true
  | _ => false

/-- Whether a string of several lines may go on with the first of `s`. -/
def goesOn (s : List Char) : Bool :=
  match s with
  | [] => false
  | c :: _ => isPlain c || c = '\n' || (c = '\r' && !isLoneReturn s)

/-- A string of several lines after its opening single quotes, and what follows it. -/
def longLiteral? (done : List Char) (s : List Char) : Option (List Char × List Char) :=
  match closing? squote s with
  | some (extra, rest) => some (done.reverse ++ extra, rest)
  | none =>
    match s with
    | [] => none
    | c :: rest => if goesOn (c :: rest) then longLiteral? (c :: done) rest else none

/-- A string of several lines after its opening double quotes, and what follows it; `fuel` bounds
the characters. -/
def longBasic? (done : List Char) (s : List Char) : Nat → Option (List Char × List Char)
  | 0 => none
  | fuel + 1 =>
    match closing? dquote s with
    | some (extra, rest) => some (done.reverse ++ extra, rest)
    | none =>
      match s with
      | [] => none
      | '\\' :: rest =>
        match dropFold? rest with
        | some rest => longBasic? done rest fuel
        | none =>
          match escape? rest with
          | none => none
          | some (c, rest) => longBasic? (c :: done) rest fuel
      | c :: rest => if goesOn (c :: rest) then longBasic? (c :: done) rest fuel else none

/-! ## Any string -/

/-- What follows the line break right after opening quotes. -/
def afterBreak (s : List Char) : List Char := (dropBreak? s).getD s

/-- **A string on one line with what follows it.** -/
def lineString? (s : List Char) : Option (List Char × List Char) :=
  match s with
  | [] => none
  | c :: rest =>
    if c = dquote then basic? [] rest s.length
    else if c = squote then literal? [] rest
    else none

/-- **Any string with what follows it.** -/
def string? (s : List Char) : Option (List Char × List Char) :=
  match closing? dquote s, closing? squote s with
  | some _, _ => longBasic? [] (afterBreak (s.drop 3)) s.length
  | none, some _ => longLiteral? [] (afterBreak (s.drop 3))
  | none, none => lineString? s

end ConsoleLens.Toml
