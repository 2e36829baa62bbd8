import ConsoleLens.Text.Split
import ConsoleLens.Url.Percent

/-!
# Url/Path — the path of an address

A path is a list of segments, each after a slash.  A segment of one dot is skipped and one of two
dots removes the segment before it, **a drive letter apart**; either leaves an empty segment when it
is the last.  A dot may be written as an escape.
-/

namespace ConsoleLens.Url

/-- Takes the dot off the front of a segment, in either spelling. -/
def dropDot? : List Char → Option (List Char)
  | '.' :: rest => some rest
  | '%' :: '2' :: 'e' :: rest => some rest
  | '%' :: '2' :: 'E' :: rest => some rest
  | _ => none

/-- Whether a segment is one dot. -/
def isDot (segment : List Char) : Bool := dropDot? segment == some []

/-- Whether a segment is two dots. -/
def isDoubleDot (segment : List Char) : Bool := (dropDot? segment).bind dropDot? == some []

/-- Whether a segment is a drive letter: a letter and a colon or a bar, with nothing or a backslash
after. -/
def isDriveLetter : List Char → Bool
  | c :: d :: rest =>
    c.isAlpha && (d = ':' || d = '|') && (rest.isEmpty || rest.head? == some '\\')
  | _ => false

/-- A drive letter with a colon for a bar. -/
def withColon : List Char → List Char
  | [c, '|'] => if c.isAlpha then [c, ':'] else [c, '|']
  | segment => segment

/-- The segments before, last first, without the last of them. -/
def shorten : List (List Char) → List (List Char)
  | [] => []
  | segment :: rest => if isDriveLetter segment then segment :: rest else rest

/-- The segments before, last first, and one more; the first of a file has a colon for a bar. -/
def push (file : Bool) (done : List (List Char)) (segment : List Char) : List (List Char) :=
  (if file && done.isEmpty then withColon segment else segment) :: done

/-- The segments that are left after those `done`, last first, have met the rest. -/
def resolveDots (file : Bool) (done : List (List Char)) : List (List Char) → List (List Char)
  | [] => done.reverse
  | [last] =>
    if isDoubleDot last then ([] :: shorten done).reverse
    else if isDot last then ([] :: done).reverse
    else (push file done last).reverse
  | segment :: rest =>
    if isDoubleDot segment then resolveDots file (shorten done) rest
    else if isDot segment then resolveDots file done rest
    else resolveDots file (push file done segment) rest

/-- **The path of the text after its first slash**, of a file or of any other address. -/
def resolvePath (file : Bool) (cs : List Char) : List Char :=
  (resolveDots file [] ((Text.split '/' cs).map encodePath)).flatMap ('/' :: ·)

end ConsoleLens.Url
