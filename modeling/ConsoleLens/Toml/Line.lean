import ConsoleLens.Toml.Quoted
import ConsoleLens.Toml.Scalar
import ConsoleLens.Toml.Table

/-!
# Toml/Line — the lines of a configuration text

A line holds a pair or a header, and maybe a comment.  Values go on over several lines between
brackets and braces, where blanks, line breaks and comments stand freely; a comma may follow the
last value there, and none stands alone.
-/

namespace ConsoleLens.Toml

/-- What a line adds. -/
inductive Line where
  /-- A value for a key. -/
  | pair (key : Key) (v : Toml)
  /-- The header of a table. -/
  | table (key : Key)
  /-- The header of one more table of an array. -/
  | tables (key : Key)

/-- How deeply arrays and tables may stand inside each other. -/
def maxNesting : Nat := 80

/-! ## Between the tokens -/

/-- What follows blanks, line breaks and comments. -/
def dropFill? (comment : Bool) : List Char → Option (List Char)
  | [] => some []
  | c :: rest =>
    if c = '\n' then dropFill? false rest
    else if isLoneReturn (c :: rest) then none
    else if c = '\r' then dropFill? comment rest
    else if comment then if isPlain c then dropFill? true rest else none
    else if isSpace c then dropFill? false rest
    else if c = '#' then dropFill? true rest
    else some (c :: rest)

/-- What follows the end of a line, where only blanks and a comment may be left. -/
def dropLineEnd? (comment : Bool) : List Char → Option (List Char)
  | [] => some []
  | c :: rest =>
    if c = '\n' then some rest
    else if isLoneReturn (c :: rest) then none
    else if c = '\r' then dropLineEnd? comment rest
    else if comment then if isPlain c then dropLineEnd? true rest else none
    else if isSpace c then dropLineEnd? false rest
    else if c = '#' then dropLineEnd? true rest
    else none

/-! ## Keys -/

/-- Whether a name may hold `c` outside quotes. -/
def inBareName (c : Char) : Bool := c.isAlphanum || c = '_' || c = '-'

/-- A name and what follows it. -/
def name? (s : List Char) : Option (String × List Char) :=
  match s.takeWhile inBareName with
  | [] => (lineString? s).map fun (cs, rest) => (String.ofList cs, rest)
  | cs => some (String.ofList cs, s.dropWhile inBareName)

/-- A key, its names parted by points, and what follows it; `fuel` bounds the names. -/
def key? : Nat → List Char → Option (Key × List Char)
  | 0, _ => none
  | fuel + 1, s =>
    match name? s with
    | none => none
    | some (name, rest) =>
      match rest.dropWhile isSpace with
      | '.' :: more =>
        (key? fuel (more.dropWhile isSpace)).map fun (key, rest) =>
          ({ key with tables := name :: key.tables }, rest)
      | rest => some (⟨[], name⟩, rest)

/-! ## Values -/

mutual

/-- A value and what follows it, inside `opened` arrays and tables; `fuel` bounds the values. -/
def value? (fuel opened : Nat) (s : List Char) : Option (Toml × List Char) :=
  match fuel with
  | 0 => none
  | fuel + 1 =>
    match s with
    | '[' :: rest =>
      if maxNesting ≤ opened then none
      else (items? fuel (opened + 1) rest).map fun (items, rest) => (.array false items, rest)
    | '{' :: rest =>
      if maxNesting ≤ opened then none
      else (pairs? fuel (opened + 1) rest).bind fun (pairs, rest) =>
        (ofPairs? pairs).map fun v => (v, rest)
    | s =>
      match string? s with
      | some (cs, rest) => some (.string (String.ofList cs), rest)
      | none => scalar? s

/-- The items of an array up to its closing bracket. -/
def items? (fuel opened : Nat) (s : List Char) : Option (List Toml × List Char) :=
  match fuel with
  | 0 => none
  | fuel + 1 =>
    match dropFill? false s with
    | none => none
    | some (']' :: rest) => some ([], rest)
    | some s =>
      match value? fuel opened s with
      | none => none
      | some (v, rest) =>
        match dropFill? false rest with
        | some (',' :: rest) =>
          (items? fuel opened rest).map fun (items, rest) => (v :: items, rest)
        | some (']' :: rest) => some ([v], rest)
        | _ => none

/-- The pairs of a table up to its closing brace. -/
def pairs? (fuel opened : Nat) (s : List Char) : Option (List (Key × Toml) × List Char) :=
  match fuel with
  | 0 => none
  | fuel + 1 =>
    match dropFill? false s with
    | none => none
    | some ('}' :: rest) => some ([], rest)
    | some s =>
      match key? s.length s with
      | none => none
      | some (key, rest) =>
        match dropFill? false rest with
        | some ('=' :: rest) =>
          match (dropFill? false rest).bind (value? fuel opened) with
          | none => none
          | some (v, rest) =>
            match dropFill? false rest with
            | some (',' :: rest) =>
              (pairs? fuel opened rest).map fun (pairs, rest) => ((key, v) :: pairs, rest)
            | some ('}' :: rest) => some ([(key, v)], rest)
            | _ => none
        | _ => none

end

/-! ## Lines -/

/-- A header after its opening brackets up to its closing ones. -/
def header? (closing s : List Char) : Option (Key × List Char) :=
  (key? s.length (s.dropWhile isSpace)).bind fun (key, rest) =>
    if closing.isPrefixOf rest then some (key, rest.drop closing.length) else none

/-- A line without its end and what follows. -/
def line? (s : List Char) : Option (Line × List Char) :=
  match s with
  | '[' :: '[' :: rest => (header? [']', ']'] rest).map fun (key, rest) => (.tables key, rest)
  | '[' :: rest => (header? [']'] rest).map fun (key, rest) => (.table key, rest)
  | s =>
    match key? s.length s with
    | some (key, '=' :: rest) =>
      (value? (2 * s.length) 0 (rest.dropWhile isSpace)).map fun (v, rest) => (.pair key v, rest)
    | _ => none

/-- The lines of a text that hold something; `fuel` bounds them. -/
def linesFrom? : Nat → List Char → Option (List Line)
  | 0, _ => none
  | fuel + 1, s =>
    match dropFill? false s with
    | none => none
    | some [] => some []
    | some s =>
      match line? s with
      | none => none
      | some (line, rest) =>
        match dropLineEnd? false rest with
        | none => none
        | some rest => (linesFrom? fuel rest).map (line :: ·)

/-- The text after the byte order mark that it may start with. -/
def dropMark (s : List Char) : List Char :=
  match s with
  | c :: rest => if c = Char.ofNat 0xFEFF then rest else s
  | [] => []

/-- **The lines of a text.** -/
def lines? (s : List Char) : Option (List Line) := linesFrom? (s.length + 1) (dropMark s)

end ConsoleLens.Toml
