import ConsoleLens.Remote.Property

/-!
# Property/Basic — the properties of an expanded object, in display order

Own properties and accessors are asked for apart.  Of what both answers report, **the first
descriptor with a value stands for its name**, regular properties and internal slots having names of
their own; what is not enumerable is shown on request only.
-/

namespace ConsoleLens

/-- One property of an expanded object. -/
structure Property where
  name : String
  value : RemoteObject
  enumerable : Bool := false
  configurable : Bool := false
  writable : Bool := false
  isInternal : Bool := false

namespace Property

/-- A flag as text. -/
def flag (b : Bool) : String := if b then "true" else "false"

/-- The hover text: the name with the flags of its descriptor. -/
def tooltip (p : Property) : String :=
  if p.isInternal then p.name ++ " (internal)"
  else
    p.name ++ "\nenumerable: " ++ flag p.enumerable ++ "\nconfigurable: " ++ flag p.configurable ++
      "\nwritable: " ++ flag p.writable

/-- Whether a name starts with a text. -/
def startsWith (name start : String) : Bool := start.toList.isPrefixOf name.toList

/-- The class of a name in the display order: plain names, then names with two underscores in front,
then symbols, then internal slots. -/
def rankOf (isInternal : Bool) (name : String) : Nat :=
  if isInternal || startsWith name "[[" then 3
  else if startsWith name "Symbol(" then 2
  else if startsWith name "__" then 1
  else 0

/-- The class of a property. -/
def rank (p : Property) : Nat := rankOf p.isInternal p.name

/-- **The display order**: by class, then by name. -/
def compare (p q : Property) : Ordering :=
  (Ord.compare p.rank q.rank).then (Ord.compare p.name q.name)

/-- Whether `p` may stand before `q`. -/
def le (p q : Property) : Bool := (compare p q).isLE

/-- The property of a regular descriptor, if it has a value. -/
def ofDescriptor? (d : PropertyDescriptor) : Option Property :=
  d.value.map fun value =>
    { name := d.name, value, enumerable := d.enumerable, configurable := d.configurable,
      writable := d.writable.getD false }

/-- The property of an internal slot, if it has a value. -/
def ofInternal? (d : InternalDescriptor) : Option Property :=
  d.value.map fun value => { name := d.name, value, isInternal := true }

/-- What names a property: internal slots have names of their own. -/
def key (p : Property) : Bool × String := (p.isInternal, p.name)

/-- The first property of each name that is not among those seen. -/
def firsts (seen : List (Bool × String)) : List Property → List Property
  | [] => []
  | p :: rest => if seen.contains p.key then firsts seen rest else p :: firsts (p.key :: seen) rest

/-- The regular properties of an answer. -/
def regular (a : PropertiesAnswer) : List Property := a.result.filterMap ofDescriptor?

/-- The internal slots of an answer. -/
def internal (a : PropertiesAnswer) : List Property :=
  (a.internalProperties.getD []).filterMap ofInternal?

/-- Whether a property is shown. -/
def isShown (showEnumerable : Bool) (p : Property) : Bool :=
  showEnumerable || p.enumerable || p.isInternal

/-- **The properties that two answers report**, own ones before accessors, in display order. -/
def merge (own accessors : PropertiesAnswer) (showEnumerable : Bool) : List Property :=
  ((firsts [] (regular own ++ regular accessors ++ (internal own ++ internal accessors))).filter
    (isShown showEnumerable)).mergeSort le

/-- The properties when a query may have failed: then there are none. -/
def ofAnswers (own accessors : Option PropertiesAnswer) (showEnumerable : Bool) : List Property :=
  match own, accessors with
  | some own, some accessors => merge own accessors showEnumerable
  | _, _ => []

end Property

end ConsoleLens
