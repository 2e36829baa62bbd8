import ConsoleLens.Url.Address
import ConsoleLens.Url.Domain
import ConsoleLens.Url.Percent

/-!
# Url/Host — which hosts an address may name

The special schemes take a domain or a numeric address; the others take any text free of the marks
that part an address.
-/

namespace ConsoleLens.Url

/-- Whether a text in brackets is a numeric address. -/
def isBracketed (cs : List Char) : Bool :=
  match cs with
  | '[' :: rest => rest.getLast? == some ']' && isAddress6 rest.dropLast
  | _ => false

/-- **Whether a special scheme takes the host.** -/
def isHost (cs : List Char) : Bool :=
  if cs.head? = some '[' then isBracketed cs
  else
    match (decode? cs).bind domain? with
    | none => false
    | some domain => !domain.isEmpty && (!endsInNumber domain || isAddress4 domain)

/-- Whether a host of another scheme may not hold `c`. -/
def forbiddenInHost (c : Char) : Bool :=
  [Char.ofNat 0, '\t', '\n', '\r', ' ', '#', '/', ':', '<', '>', '?', '@', '[', '\\', ']', '^',
    '|'].contains c

/-- **Whether a scheme that is not special takes the host.** -/
def isPlainHost (cs : List Char) : Bool :=
  if cs.head? = some '[' then isBracketed cs else !cs.any forbiddenInHost

end ConsoleLens.Url
