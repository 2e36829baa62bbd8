import ConsoleLens.Toml.Quoted

/-!
# Toml/Printer — the written form of strings and lists

A string has the first form that can hold it without escapes: double quotes, single quotes, three
double quotes, three single quotes.  **Only if none can, escapes are written**, between three quotes
when there is a line break to keep.
-/

namespace ConsoleLens.Toml

/-! ## Forms -/

/-- How a string is quoted. -/
inductive Form where
  | basic
  | literal
  | longBasic
  | longLiteral
  deriving DecidableEq

/-- Whether `c` has to be escaped wherever escapes count: a control character, but no tab or line
feed. -/
def isControl (c : Char) : Bool :=
  (c.toNat < 32 && c ≠ '\t' && c ≠ '\n') || c.toNat = 127

/-- The length of the longest run of `c`, `run` being that of the open one. -/
def longestRun (c : Char) (run : Nat) : List Char → Nat
  | [] => run
  | d :: rest => if d = c then longestRun c (run + 1) rest else max run (longestRun c 0 rest)

/-- Whether a string stands in a form without escapes, line breaks and tabs apart. -/
def Form.holds (form : Form) (cs : List Char) : Bool :=
  !cs.any isControl &&
    match form with
    | .basic => !cs.contains dquote && !cs.contains '\\' && !cs.contains '\n'
    | .literal => !cs.contains squote && !cs.contains '\n'
    | .longBasic => !cs.contains '\\' && longestRun dquote 0 cs < 3
    | .longLiteral => longestRun squote 0 cs < 3

/-- **The form of a string.** -/
def formOf (cs : List Char) : Form :=
  ([Form.basic, .literal, .longBasic, .longLiteral].find? (·.holds cs)).getD
    (if cs.contains '\n' then .longBasic else .basic)

/-! ## Escapes -/

/-- A character in hexadecimal, four digits after `\u`. -/
def escapedCode (c : Char) : List Char :=
  '\\' :: 'u' :: Digits.padded 4 ((Digits.hex c.toNat).map Char.toUpper)

/-- The escape of a character, if it has one; quotes and line feeds apart. -/
def escapeOf? (c : Char) : Option (List Char) :=
  if c = Char.ofNat 8 then some ['\\', 'b']
  else if c = '\t' then some ['\\', 't']
  else if c = Char.ofNat 12 then some ['\\', 'f']
  else if c = '\r' then some ['\\', 'r']
  else if c = '\\' then some ['\\', '\\']
  else if isControl c then some (escapedCode c)
  else none

/-- The characters of a string between double quotes.  On one line each quote is escaped, on several
every third one of a run of them; `run` counts the quotes so far. -/
def escaped (long : Bool) (run : Nat) : List Char → List Char
  | [] => []
  | c :: rest =>
    if c = dquote then
      if long && run < 2 then dquote :: escaped long (run + 1) rest
      else '\\' :: dquote :: escaped long 0 rest
    else if c = '\n' then
      if long then '\n' :: escaped long 0 rest else '\\' :: 'n' :: escaped long 0 rest
    else (escapeOf? c).getD [c] ++ escaped long 0 rest

/-- A string between three quotes, on lines of its own if it has a line break. -/
def framed (quote : Char) (cs body : List Char) : List Char :=
  let quotes := [quote, quote, quote]
  quotes ++ (if cs.contains '\n' then ['\n'] else []) ++ body ++ quotes

/-- A string in a form. -/
def Form.write (form : Form) (cs : List Char) : List Char :=
  match form with
  | .basic => dquote :: escaped false 0 cs ++ [dquote]
  | .literal => squote :: cs ++ [squote]
  | .longBasic => framed dquote cs (escaped true 0 cs)
  | .longLiteral => framed squote cs cs

/-- **A string as it is written.** -/
def quote (s : String) : String := String.ofList ((formOf s.toList).write s.toList)

/-! ## Lists and lines -/

/-- A list of strings: on one line if it has one at most, else each on a line of its own. -/
def listOf (items : List String) : String :=
  match items with
  | [] => "[]"
  | [item] => "[" ++ quote item ++ "]"
  | items => "[\n" ++ String.join (items.map fun item => "    " ++ quote item ++ ",\n") ++ "]"

/-- A line that gives a value to a name. -/
def lineOf (name value : String) : String := name ++ " = " ++ value ++ "\n"

end ConsoleLens.Toml
