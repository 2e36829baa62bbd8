import ConsoleLens.Json.Printer
import ConsoleLens.Preview.Layout
import ConsoleLens.Preview.Number
import ConsoleLens.SourceMap.Registry

/-!
# Preview/Basic — what a remote value is shown as

Only data that came with the value is looked at.  A value that is a place in a script is resolved
through the registry; a value that is carried inline stands as it is; an object is laid out from its
preview, or described.
-/

namespace ConsoleLens

/-- **What a value is shown as**, with the handle by which it can be expanded. -/
structure Preview where
  title : String := ""
  handle : Option String := none
  deriving DecidableEq, Inhabited

/-- Whether the value can be expanded. -/
def Preview.isExpandable (p : Preview) : Bool := p.handle.isSome

/-- What previews are made with: the registry, if any, and the script that is assumed for places in
unknown scripts. -/
structure Formatter where
  registry : Option Registry := none
  fallbackUrl : Option String := none

namespace Formatter

/-- The text of an inline value. -/
def inlineText : Json → String
  | .string s => Preview.quoted true s
  | .number literal => Preview.numberText literal
  | .bool true => "true"
  | .bool false => "false"
  | .null => "null"
  | j => j.render

/-- A natural of 64 bits. -/
def word? (j : Json) : Option Nat := j.nat? Json.maxWord

/-- The subtype of a value that is a place in a script. -/
def placeSubtype : String := "internal#location"

/-- The place in the original source that a value names, as source and line; one that cannot be
counted from 1 is not known. -/
def place? (f : Formatter) (v : RemoteObject) : Option String := do
  let registry ← f.registry
  let place ← v.value
  let line ← (place.member? "lineNumber").bind word?
  let column := ((place.member? "columnNumber").bind word?).getD 0
  let known := ((place.member? "scriptId").bind Json.text?).bind registry.scriptUrl?
  let url ← known.or f.fallbackUrl
  if line > Json.maxIndex ∨ column > Json.maxIndex then none
  let original ← (do registry.resolve url (← oneBased line) (← oneBased column)).toOption
  if original.isEmpty then none
  some (addressPath original.source ++ ":" ++ toString original.line)

/-- The layout of a value's own preview. -/
def layout? (v : RemoteObject) : Option String :=
  match v.preview with
  | none => none
  | some p => Preview.layout? v.className v.subtype v.description p.overflow
      (Preview.fieldsOf p.properties) (Preview.entryTexts p.entries)

/-- **The text of a value.** -/
def title (f : Formatter) (v : RemoteObject) : String :=
  if v.hasSubtype placeSubtype then
    (f.place? v).getD (Preview.fallback v.className v.description)
  else
    match v.unserializableValue, v.value with
    | some text, _ => text
    | none, some inline => inlineText inline
    | none, none =>
      if v.kind = .undefined then "undefined"
      else
        let laidOut := if v.kind = .object then layout? v else none
        laidOut.getD (Preview.fallback v.className v.description)

/-- **What a value is shown as.** -/
def format (f : Formatter) (v : RemoteObject) : Preview := ⟨f.title v, v.objectId⟩

end Formatter

end ConsoleLens
