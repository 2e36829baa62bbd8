import ConsoleLens.Json.Basic
import ConsoleLens.Remote.Kind

/-!
# Remote/Object — a value in the page, as far as the wire shows it

A primitive carries its value inline.  An object carries a handle for later queries and, maybe, a
bounded preview of its properties or entries, which may hold previews in turn.
-/

namespace ConsoleLens

mutual

/-- A bounded preview of an object's own properties or entries. -/
structure ObjectPreview where
  kind : RemoteKind
  subtype : Option String := none
  description : Option String := none
  overflow : Bool := false
  properties : List PropertyPreview := []
  entries : Option (List EntryPreview) := none

/-- One previewed property: its value is abbreviated text, or a preview of its own. -/
structure PropertyPreview where
  name : String
  kind : RemoteKind
  value : Option String := none
  valuePreview : Option ObjectPreview := none
  subtype : Option String := none

/-- One previewed entry of a map, or of a set when there is no key. -/
structure EntryPreview where
  key : Option ObjectPreview := none
  value : ObjectPreview

end

/-- **A value in the page.**  An inline `null` is a value; a missing one is none. -/
structure RemoteObject where
  kind : RemoteKind
  subtype : Option String := none
  className : Option String := none
  value : Option Json := none
  unserializableValue : Option String := none
  description : Option String := none
  objectId : Option String := none
  preview : Option ObjectPreview := none

namespace RemoteObject

/-- Whether the value is carried inline. -/
def isInline (v : RemoteObject) : Bool := v.value.isSome || v.unserializableValue.isSome

/-- Whether `name` is the subtype. -/
def hasSubtype (v : RemoteObject) (name : String) : Bool := v.subtype == some name

end RemoteObject

end ConsoleLens
