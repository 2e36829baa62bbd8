import ConsoleLens.Url.Host
import ConsoleLens.Url.Path

/-!
# Url/Basic — absolute addresses

An address starts with a scheme.  The special schemes have a host and take backslashes for slashes;
`file` takes a host or a drive letter; any other scheme has a host after two slashes, a path after
one, and **no path at all otherwise**.  Blanks around an address and tabs and line breaks within it
do not count.  A query and a fragment end the path and nothing in them is wrong.
-/

namespace ConsoleLens

/-- An absolute address, as far as its path: there is none where the scheme is followed by bare
text, as in `mailto:a@b`. -/
structure Url where
  scheme : List Char
  path : Option (List Char)

namespace Url

/-- How a scheme treats what follows it. -/
inductive Family where
  | file
  | special
  | other
  deriving DecidableEq

/-- The family of a scheme in lower case. -/
def familyOf (scheme : List Char) : Family :=
  if scheme = "file".toList then .file
  else if ["http".toList, "https".toList, "ws".toList, "wss".toList, "ftp".toList].contains scheme
  then .special
  else .other

/-- The address without what does not count in it. -/
def strip (cs : List Char) : List Char :=
  let inner := ((cs.dropWhile (· ≤ ' ')).reverse.dropWhile (· ≤ ' ')).reverse
  inner.filter fun c => c ≠ '\t' ∧ c ≠ '\n' ∧ c ≠ '\r'

/-- Whether a scheme may go on with `c`. -/
def inScheme (c : Char) : Bool := c.isAlphanum || c = '+' || c = '-' || c = '.'

/-- The scheme in lower case and what follows its colon. -/
def scheme? (cs : List Char) : Option (List Char × List Char) :=
  match cs, cs.dropWhile inScheme with
  | c :: _, ':' :: rest =>
    if c.isAlpha then some ((cs.takeWhile inScheme).map Char.toLower, rest) else none
  | _, _ => none

/-- Whether `c` ends the part of an address that names the host. -/
def endsAuthority (special : Bool) (c : Char) : Bool :=
  c = '/' || c = '?' || c = '#' || (special && c = '\\')

/-- The path with its last part cut at the query or the fragment. -/
def beforeQuery (cs : List Char) : List Char := cs.takeWhile fun c => c ≠ '?' ∧ c ≠ '#'

/-- Backslashes as slashes. -/
def slashed (cs : List Char) : List Char := cs.map fun c => if c = '\\' then '/' else c

/-- What follows a slash, if one is first. -/
def dropSlash (cs : List Char) : List Char :=
  match cs with
  | '/' :: rest => rest
  | _ => cs

/-! ## User, host and port -/

/-- The text before the last sign that ends the user's name, and what follows it. -/
def splitUser (authority : List Char) : Option (List Char) × List Char :=
  if authority.contains '@' then
    (some ((authority.reverse.dropWhile (· ≠ '@')).drop 1).reverse,
      (authority.reverse.takeWhile (· ≠ '@')).reverse)
  else (none, authority)

/-- The host and what follows it from the colon of its port on; one in brackets is the host's. -/
def splitPort (inBrackets : Bool) : List Char → List Char × List Char
  | [] => ([], [])
  | c :: rest =>
    if c = ':' ∧ !inBrackets then ([], c :: rest)
    else
      let inBrackets := if c = '[' then true else if c = ']' then false else inBrackets
      let (host, port) := splitPort inBrackets rest
      (c :: host, port)

/-- Whether digits are a port: nothing, or a number of sixteen bits. -/
def isPort (digits : List Char) : Bool :=
  digits.isEmpty || (Digits.decimal? digits).any (· ≤ 65535)

/-- What follows the user, the host and the port after two slashes; missing when one of them is
wrong.  A name of a user needs a host, and so does a port. -/
def afterAuthority? (special : Bool) (cs : List Char) : Option (List Char) :=
  let authority := cs.takeWhile (!endsAuthority special ·)
  let rest := cs.dropWhile (!endsAuthority special ·)
  let (user, place) := splitUser authority
  let (host, port) := splitPort false place
  let hostFits := if special then isHost host else isPlainHost host
  if !hostFits then none
  else if user = some [] ∧ place.isEmpty ∧ !rest.isEmpty then none
  else if host.isEmpty ∧ (!port.isEmpty || (user.any fun u => u ≠ [] && u ≠ [':'])) then none
  else
    -- a backslash ends a port in every scheme
    let digits := (port.drop 1).takeWhile (· ≠ '\\')
    let beyond := (port.drop 1).dropWhile (· ≠ '\\')
    if isPort digits then some (beyond ++ rest) else none

/-! ## The three families -/

/-- The address of a special scheme after its colon: slashes do not count, the host does. -/
def special? (cs : List Char) : Option (Option (List Char)) :=
  (afterAuthority? true (cs.dropWhile fun c => c = '/' || c = '\\')).map fun rest =>
    some (resolvePath false (dropSlash (slashed (beforeQuery rest))))

/-- The path of a file after its first slash: no empty segment stands in front. -/
def filePath (cs : List Char) : List Char :=
  '/' :: Text.trimSlashes (resolvePath true (slashed (beforeQuery cs)))

/-- Whether a host is the machine itself. -/
def isLocal (host : List Char) : Bool :=
  host.isEmpty || (decode? host).bind domain? == some "localhost".toList

/-- The address of a file after its colon.  Where the host is the machine itself, the slash after it
opens an empty segment. -/
def file? (cs : List Char) : Option (Option (List Char)) :=
  match slashed (beforeQuery cs) with
  | '/' :: '/' :: _ =>
    let afterSlashes := cs.drop 2
    let host := afterSlashes.takeWhile (!endsAuthority true ·)
    let rest := afterSlashes.dropWhile (!endsAuthority true ·)
    if host.length = 2 ∧ isDriveLetter host then some (some (filePath afterSlashes))
    else if isLocal host then some (some (filePath rest))
    else if isHost host then some (some (filePath (dropSlash (slashed (beforeQuery rest)))))
    else none
  | '/' :: _ => some (some (filePath (cs.drop 1)))
  | _ => some (some (filePath cs))

/-- The address of any other scheme after its colon. -/
def other? (cs : List Char) : Option (Option (List Char)) :=
  match cs with
  | '/' :: '/' :: rest => (afterAuthority? false rest).map fun rest =>
      let path := beforeQuery rest
      some (if path.isEmpty then [] else resolvePath false (dropSlash path))
  | '/' :: rest => some (some (resolvePath false (beforeQuery rest)))
  | _ => some none

/-- **The absolute address that a text spells.** -/
def parse? (text : String) : Option Url := do
  let (scheme, rest) ← scheme? (strip text.toList)
  let path ← match familyOf scheme with
    | .file => file? rest
    | .special => special? rest
    | .other => other? rest
  return ⟨scheme, path⟩

end Url

/-- **The path of an address**; a text that is none, or that has no path, stays as it is. -/
def addressPath (text : String) : String :=
  match Url.parse? text with
  | some ⟨_, some path⟩ => String.ofList path
  | _ => text

end ConsoleLens
