import ConsoleLens.Text.Digits

/-!
# Url/Percent — percent escapes

A path keeps most of printable ASCII and writes every other character as the bytes of its UTF-8
form.
-/

namespace ConsoleLens.Url

/-- Whether a path keeps `c` as it is: printable ASCII but for seven marks and the space. -/
def keptInPath (c : Char) : Bool :=
  '!' ≤ c && c ≤ '~' && (['"', '#', '<', '>', '?', Char.ofNat 96, '{', '}'].contains c) = false

/-- One byte as an escape. -/
def escapeByte (b : UInt8) : List Char :=
  '%' :: (Digits.padded 2 (Digits.hex b.toNat)).map Char.toUpper

/-- One character of a path. -/
def encodeChar (c : Char) : List Char :=
  if keptInPath c then [c] else (String.utf8EncodeChar c).flatMap escapeByte

/-- **A segment of a path with its escapes.** -/
def encodePath (cs : List Char) : List Char := cs.flatMap encodeChar

/-- The bytes of a text, each escape standing for its byte. -/
def decodeBytes : List Char → List UInt8
  | [] => []
  | '%' :: a :: b :: rest =>
    match Digits.natural? 16 [a, b] with
    | some n => UInt8.ofNat n :: decodeBytes rest
    | none => UInt8.ofNat '%'.toNat :: decodeBytes (a :: b :: rest)
  | c :: rest => String.utf8EncodeChar c ++ decodeBytes rest

/-- The text that the bytes spell, if they are UTF-8. -/
def decode? (cs : List Char) : Option (List Char) :=
  (String.fromUTF8? ⟨(decodeBytes cs).toArray⟩).map String.toList

end ConsoleLens.Url
