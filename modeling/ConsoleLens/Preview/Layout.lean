import ConsoleLens.Remote.Object
import ConsoleLens.Text.Blank

/-!
# Preview/Layout — one line of text for a previewed object

The class or the subtype of an object picks its layout: an array's items, a promise's state and
result, the entries of a map or a set, or the named fields of any other object.  **An array cut
short has no layout**, for its items would claim the wrong contents.
-/

namespace ConsoleLens.Preview

/-- One property of a preview: its abbreviated value and the text it is shown as. -/
structure Field where
  name : String
  value : Option String
  text : String

/-- A description on one line, empty when there is none. -/
def describe (description : Option String) : String := (description.map Text.collapse).getD ""

/-- Whether the class or the subtype is among those listed. -/
def isOne (className subtype : Option String) (classes subtypes : List String) : Bool :=
  className.any classes.contains || subtype.any subtypes.contains

/-- A class's name with a space after it; plain objects and functions go without. -/
def classLabel (className : Option String) : String :=
  match className with
  | none => ""
  | some name => if name = "" ∨ name = "Object" ∨ name = "Function" then "" else name ++ " "

/-- Texts with commas between them. -/
def commas (texts : List String) : String := ", ".intercalate texts

/-- A text in braces. -/
def braced (text : String) : String := "\x7b" ++ text ++ "\x7d"

/-- **The text of an object by its parts**, missing when no layout fits. -/
def layout? (className subtype description : Option String) (overflow : Bool)
    (fields : List Field) (entries : List String) : Option String :=
  if isOne className subtype ["Array"] ["array", "typedarray"] then
    if overflow then none else some ("[ " ++ commas (fields.map (·.text)) ++ " ]")
  else if isOne className subtype ["Promise"] ["promise"] then
    let state := (fields.head?.bind (·.value)).getD ""
    let result := (fields[1]?.map (·.text)).getD ""
    some (describe description ++ ": " ++ braced ("<" ++ state ++ ">: " ++ result))
  else if isOne className subtype ["Map", "Set", "WeakMap", "WeakSet"]
      ["map", "set", "weakmap", "weakset"] then
    some (describe description ++ " " ++ braced (commas entries))
  else if subtype.isNone then
    let texts := fields.map fun f => f.name ++ ": " ++ f.text
    some (classLabel className ++ braced (commas (if overflow then texts ++ ["…"] else texts)))
  else none

/-- What stands for an object without a layout: its description, after the class's name unless the
description starts with it. -/
def fallback (className description : Option String) : String :=
  let text := describe description
  let label := match className with
    | some name => if name.toList.isPrefixOf text.toList then "" else classLabel className
    | none => ""
  Text.trimEnd (label ++ text)

/-- A text, between apostrophes when it is a string's. -/
def quoted (isString : Bool) (text : String) : String :=
  if isString then "'" ++ text ++ "'" else text

/-- The text of a preview that stands for a key or a value: its description. -/
def describedText (p : ObjectPreview) : String :=
  quoted (p.kind = .string) (p.description.getD "")

/-- The text of an entry. -/
def entryText (e : EntryPreview) : String :=
  match e.key with
  | some key => describedText key ++ " => " ++ describedText e.value
  | none => describedText e.value

/-- The texts of the entries. -/
def entryTexts (entries : Option (List EntryPreview)) : List String :=
  (entries.getD []).map entryText

mutual

/-- The fields of the previewed properties. -/
def fieldsOf : List PropertyPreview → List Field
  | [] => []
  | p :: rest => fieldOf p :: fieldsOf rest

/-- The field of a previewed property: an object is laid out if its preview allows it. -/
def fieldOf : PropertyPreview → Field
  | ⟨name, kind, value, valuePreview, _⟩ =>
    let plain := quoted (kind = .string) (value.getD "")
    { name, value,
      text := if kind = .object then (nestedText? valuePreview).getD plain else plain }

/-- The layout of a preview inside another. -/
def nestedText? : Option ObjectPreview → Option String
  | none => none
  | some ⟨_, subtype, description, overflow, properties, entries⟩ =>
    layout? none subtype description overflow (fieldsOf properties) (entryTexts entries)

end

end ConsoleLens.Preview
