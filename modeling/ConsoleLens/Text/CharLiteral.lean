import ConsoleLens.Text.Digits
import ConsoleLens.Text.Visible

/-!
# Text/CharLiteral — one character between apostrophes

A message that names a character shows it as a literal: a backslash form where there is one, the
code point in hexadecimal where nothing would show, and else the character itself.
-/

namespace ConsoleLens.Text

/-- What stands for `c` between the apostrophes. -/
def charLiteralBody (c : Char) : List Char :=
  if c = Char.ofNat 0 then ['\\', '0']
  else if c = '\t' then ['\\', 't']
  else if c = '\r' then ['\\', 'r']
  else if c = '\n' then ['\\', 'n']
  else if c = Char.ofNat 39 then ['\\', Char.ofNat 39]
  else if c = '\\' then ['\\', '\\']
  else if isVisible c then [c]
  else ['\\', 'u', '{'] ++ Digits.hex c.toNat ++ ['}']

/-- **The literal of a character.** -/
def charLiteral (c : Char) : String :=
  String.ofList (Char.ofNat 39 :: charLiteralBody c ++ [Char.ofNat 39])

end ConsoleLens.Text
