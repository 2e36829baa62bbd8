import ConsoleLens.Text.Joining
import ConsoleLens.Text.Split
import ConsoleLens.Url.Letters
import ConsoleLens.Url.Punycode

/-!
# Url/Domain — the names of hosts

A name is taken letter by letter into the form in which names are compared, and then parted at its
dots.  **Each label has to be written as names are**: it starts with no mark, joiners stand only
where they join, and a name that is anywhere written to the left keeps one direction in each label.
-/

namespace ConsoleLens.Url

/-- Whether a domain may not hold `c`: a control character, the space, or a mark of the address. -/
def forbiddenInDomain (c : Char) : Bool :=
  c ≤ ' ' || c = Char.ofNat 127 ||
    ['%', '#', '/', ':', '<', '>', '?', '@', '[', '\\', ']', '^', '|'].contains c

/-! ## Joiners -/

/-- The zero-width joiner. -/
def joiner : Char := Char.ofNat 0x200D

/-- The zero-width character that keeps its neighbours from joining. -/
def nonJoiner : Char := Char.ofNat 0x200C

/-- Whether what stands before, last character first, and what comes after would join. -/
def wouldJoin (before after : List Char) : Bool :=
  (before.dropWhile Text.isTransparent).head?.any Text.joinsNext &&
    (after.dropWhile Text.isTransparent).head?.any Text.joinsLast

/-- Whether every joiner of a label stands where it may, `before` being what has been seen, last
character first. -/
def joinersFit (before : List Char) : List Char → Bool
  | [] => true
  | c :: rest =>
    (if c = joiner then before.head?.any Text.isVirama
      else if c = nonJoiner then before.head?.any Text.isVirama || wouldJoin before rest
      else true) &&
      joinersFit (c :: before) rest

/-! ## Directions -/

/-- Whether a label has to do with writing to the left. -/
def isLeftward (label : List Char) : Bool :=
  label.any fun c => Text.direction c = .rightToLeft || Text.direction c = .arabicNumber

/-- Whether a label keeps one direction: it starts with a letter, ends in a letter or a digit, marks
apart, and holds letters of one direction and digits of one kind. -/
def keepsDirection (label : List Char) : Bool :=
  let directions := label.map Text.direction
  let last := (directions.reverse.dropWhile (· = .mark)).head?
  match directions.head? with
  | none => true
  | some .leftToRight =>
    !directions.contains .rightToLeft && !directions.contains .arabicNumber &&
      (last = some .leftToRight || last = some .number)
  | some .rightToLeft =>
    !directions.contains .leftToRight &&
      !(directions.contains .number && directions.contains .arabicNumber) &&
      (last = some .rightToLeft || last = some .number || last = some .arabicNumber)
  | some _ => false

/-! ## Labels -/

/-- Whether a decoded label is in the form that it would be given. -/
def isSettled (label : List Char) : Bool :=
  label.any (128 ≤ ·.toNat) &&
    label.all fun c => c.toNat < 128 || (!isRefused c && !isChanged c)

/-- A label as it is meant: one after `xn--` is decoded. -/
def label? (label : List Char) : Option (List Char) :=
  match label with
  | 'x' :: 'n' :: '-' :: '-' :: rest =>
    if rest.all (·.toNat < 128) then (Punycode.decode? rest).filter isSettled else none
  | label => some label

/-- Whether a label is written as names are. -/
def isLabel (label : List Char) : Bool :=
  !label.head?.any Text.isMark && joinersFit [] label

/-- **The domain in the form in which it is compared.** -/
def domain? (cs : List Char) : Option (List Char) :=
  match cs.mapM letters? with
  | none => none
  | some parts =>
    let domain := parts.flatten
    match (Text.split '.' domain).mapM label? with
    | none => none
    | some labels =>
      let fits := labels.all isLabel && (!labels.any isLeftward || labels.all keepsDirection)
      if domain.any forbiddenInDomain || !fits then none else some domain

end ConsoleLens.Url
