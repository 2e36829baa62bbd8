import ConsoleLens.Text.Digits

/-!
# Json/Basic — values that keep the text of their numbers

A number is its literal, so no digit is lost between reading a value and printing it.  The fields of
an object stand in the order in which they were read; `canonical` is the value as it is kept and
printed: **sorted by name, the last of equal names winning, literals in one spelling**.
-/

namespace ConsoleLens

/-- A JSON value.  `unusable` stands for text that is grammatical and holds no value: a string with
half a surrogate pair, or a container nested too deeply.  A field that nobody reads may hold it. -/
inductive Json where
  | null
  | bool (b : Bool)
  | number (literal : String)
  | string (s : String)
  | array (items : List Json)
  | object (members : List (String × Json))
  | unusable
  deriving Inhabited

namespace Json

/-- A number without sign or fraction. -/
def ofNat (n : Nat) : Json := .number (String.ofList (Digits.decimal n))

/-- A whole number. -/
def ofInt : Int → Json
  | .ofNat n => ofNat n
  | .negSucc n => .number (String.ofList ('-' :: Digits.decimal (n + 1)))

/-- The text itself, or nothing. -/
def ofOption (f : α → Json) : Option α → Json
  | none => .null
  | some a => f a

/-- The list of the images. -/
def ofList (f : α → Json) (xs : List α) : Json := .array (xs.map f)

/-! ## One spelling for a number -/

/-- A literal's exponent is written `e+5` or `e-5`, its digits as they are. -/
def canonicalExponent : List Char → List Char
  | [] => []
  | c :: cs =>
    if c = 'e' ∨ c = 'E' then
      match cs with
      | '+' :: ds => 'e' :: '+' :: ds
      | '-' :: ds => 'e' :: '-' :: ds
      | ds => 'e' :: '+' :: ds
    else c :: canonicalExponent cs

/-- **The spelling of a literal**: a signed exponent, and no sign on the integer zero. -/
def canonicalLiteral (literal : String) : String :=
  if literal = "-0" then "0" else String.ofList (canonicalExponent literal.toList)

/-- A member put into members sorted by name; an equal name is replaced. -/
def insertMember (name : String) (v : Json) : List (String × Json) → List (String × Json)
  | [] => [(name, v)]
  | (n, w) :: rest =>
    if name < n then (name, v) :: (n, w) :: rest
    else if name = n then (name, v) :: rest
    else (n, w) :: insertMember name v rest

/-- Members sorted by name, the last of equal names winning. -/
def sortMembers (members : List (String × Json)) : List (String × Json) :=
  members.foldl (fun sorted m => insertMember m.1 m.2 sorted) []

mutual

/-- **The value as it is kept and printed.** -/
def canonical : Json → Json
  | .number literal => .number (canonicalLiteral literal)
  | .array items => .array (canonicalItems items)
  | .object members => .object (sortMembers (canonicalMembers members))
  | .null => .null
  | .bool b => .bool b
  | .string s => .string s
  | .unusable => .unusable

/-- The items of an array as they are kept. -/
def canonicalItems : List Json → List Json
  | [] => []
  | j :: rest => canonical j :: canonicalItems rest

/-- The members of an object as they are kept, before sorting. -/
def canonicalMembers : List (String × Json) → List (String × Json)
  | [] => []
  | (name, j) :: rest => (name, canonical j) :: canonicalMembers rest

end

mutual

/-- Whether every part of the value can be read. -/
def isUsable : Json → Bool
  | .unusable => false
  | .array items => areUsable items
  | .object members => membersUsable members
  | .null => true
  | .bool _ => true
  | .number _ => true
  | .string _ => true

/-- Whether every item can be read. -/
def areUsable : List Json → Bool
  | [] => true
  | j :: rest => isUsable j && areUsable rest

/-- Whether every member can be read. -/
def membersUsable : List (String × Json) → Bool
  | [] => true
  | (_, j) :: rest => isUsable j && membersUsable rest

end

end Json

end ConsoleLens
