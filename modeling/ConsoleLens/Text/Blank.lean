/-!
# Text/Blank — blank characters and words

A blank is a character with the property White_Space: twenty-five of them, and neither the
zero-width space nor the byte order mark.
-/

namespace ConsoleLens.Text

/-- Whether `c` is blank. -/
def isBlank (c : Char) : Bool :=
  let n := c.toNat
  (9 ≤ n && n ≤ 13) || n = 0x20 || n = 0x85 || n = 0xA0 || n = 0x1680 ||
    (0x2000 ≤ n && n ≤ 0x200A) || n = 0x2028 || n = 0x2029 || n = 0x202F || n = 0x205F || n = 0x3000

/-- The words of a text, `word` being the open one, last character first. -/
def wordsFrom (word : List Char) : List Char → List (List Char)
  | [] => if word.isEmpty then [] else [word.reverse]
  | c :: rest =>
    if isBlank c then
      if word.isEmpty then wordsFrom [] rest else word.reverse :: wordsFrom [] rest
    else wordsFrom (c :: word) rest

/-- The runs of characters that are not blank. -/
def words (text : String) : List String := (wordsFrom [] text.toList).map String.ofList

/-- **The words with one space between them.** -/
def collapse (text : String) : String := " ".intercalate (words text)

/-- The text without the blanks it ends in. -/
def trimEnd (text : String) : String :=
  String.ofList (text.toList.reverse.dropWhile isBlank).reverse

end ConsoleLens.Text
