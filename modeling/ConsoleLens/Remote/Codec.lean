import ConsoleLens.Json.Record
import ConsoleLens.Remote.Property

/-!
# Remote/Codec — remote values on the wire

Every record is read by `ofJson?` and written by `toJson`.  Writing leaves out an optional field
that is missing and keeps every other; reading is strict about types and ignores fields it does not
know. Inline values pass through as they are kept, so **an explicit `null` stays apart from no
value**.
-/

namespace ConsoleLens

open Json

/-- A member that is written when there is a value. -/
def Json.member (name : String) : Option Json → List (String × Json)
  | none => []
  | some j => [(name, j)]

/-! ## Reading -/

/-- The type of a value: any word, known or not. -/
def RemoteKind.ofJson? (j : Json) : Option RemoteKind := (caseName? j).map RemoteKind.ofName

/-- The fields of a preview. -/
def ObjectPreview.fields : List String :=
  ["type", "subtype", "description", "overflow", "properties", "entries"]

/-- The fields of a previewed property. -/
def PropertyPreview.fields : List String := ["name", "type", "value", "valuePreview", "subtype"]

/-- The fields of a previewed entry. -/
def EntryPreview.fields : List String := ["key", "value"]

mutual

/-- Reads a preview. -/
def ObjectPreview.ofJson? (j : Json) : Option ObjectPreview :=
  match _hr : j.record? ObjectPreview.fields with
  | none => none
  | some r => do
    let kind ← r.required "type" RemoteKind.ofJson?
    let subtype ← r.optional "subtype" text?
    let description ← r.optional "description" text?
    let overflow ← r.orElse "overflow" false bool?
    let properties ← match _hv : r.get? "properties" with
      | none => some []
      | some v => PropertyPreview.listOfJson? v
    let entries ← match _hv : r.get? "entries" with
      | none => some none
      | some .null => some none
      | some v => (EntryPreview.listOfJson? v).map some
    return { kind, subtype, description, overflow, properties, entries }
termination_by (sizeOf j, 0)
decreasing_by all_goals exact Prod.Lex.left _ _ (sizeOf_get?_lt _hr _hv)

/-- Reads a list of previewed properties. -/
def PropertyPreview.listOfJson? (j : Json) : Option (List PropertyPreview) :=
  match j with
  | .array items => items.attach.mapM fun ⟨item, _⟩ => PropertyPreview.ofJson? item
  | _ => none
termination_by (sizeOf j, 0)
decreasing_by
  rename_i h
  have := sizeOf_lt_of_mem h
  apply Prod.Lex.left
  simp only [array.sizeOf_spec]
  omega

/-- Reads a previewed property. -/
def PropertyPreview.ofJson? (j : Json) : Option PropertyPreview :=
  match _hr : j.record? PropertyPreview.fields with
  | none => none
  | some r => do
    let name ← r.required "name" text?
    let kind ← r.required "type" RemoteKind.ofJson?
    let value ← r.optional "value" text?
    let valuePreview ← match _hv : r.get? "valuePreview" with
      | none => some none
      | some .null => some none
      | some v => (ObjectPreview.ofJson? v).map some
    let subtype ← r.optional "subtype" text?
    return { name, kind, value, valuePreview, subtype }
termination_by (sizeOf j, 0)
decreasing_by all_goals exact Prod.Lex.left _ _ (sizeOf_get?_lt _hr _hv)

/-- Reads a list of previewed entries. -/
def EntryPreview.listOfJson? (j : Json) : Option (List EntryPreview) :=
  match j with
  | .array items => items.attach.mapM fun ⟨item, _⟩ => EntryPreview.ofJson? item
  | _ => none
termination_by (sizeOf j, 0)
decreasing_by
  rename_i h
  have := sizeOf_lt_of_mem h
  apply Prod.Lex.left
  simp only [array.sizeOf_spec]
  omega

/-- Reads a previewed entry. -/
def EntryPreview.ofJson? (j : Json) : Option EntryPreview :=
  match _hr : j.record? EntryPreview.fields with
  | none => none
  | some r => do
    let key ← match _hv : r.get? "key" with
      | none => some none
      | some .null => some none
      | some v => (ObjectPreview.ofJson? v).map some
    let value ← match _hv : r.get? "value" with
      | none => none
      | some v => ObjectPreview.ofJson? v
    return { key, value }
termination_by (sizeOf j, 0)
decreasing_by all_goals exact Prod.Lex.left _ _ (sizeOf_get?_lt _hr _hv)

end

/-- The fields of a remote value. -/
def RemoteObject.fields : List String :=
  ["type", "subtype", "className", "value", "unserializableValue", "description", "objectId",
    "preview"]

/-- **Reads a remote value.**  A `null` in place of the inline value is that value. -/
def RemoteObject.ofJson? (j : Json) : Option RemoteObject := do
  let r ← j.record? RemoteObject.fields
  return {
    kind := ← r.required "type" RemoteKind.ofJson?
    subtype := ← r.optional "subtype" text?
    className := ← r.optional "className" text?
    value := ← r.orElse "value" none fun v => (any? v).map some
    unserializableValue := ← r.optional "unserializableValue" text?
    description := ← r.optional "description" text?
    objectId := ← r.optional "objectId" text?
    preview := ← r.optional "preview" ObjectPreview.ofJson? }

/-- Reads a regular property. -/
def PropertyDescriptor.ofJson? (j : Json) : Option PropertyDescriptor := do
  let r ← j.record?
    ["name", "value", "writable", "get", "set", "configurable", "enumerable", "isOwn"]
  return {
    name := ← r.required "name" text?
    value := ← r.optional "value" RemoteObject.ofJson?
    writable := ← r.optional "writable" bool?
    get := ← r.optional "get" RemoteObject.ofJson?
    set := ← r.optional "set" RemoteObject.ofJson?
    configurable := ← r.orElse "configurable" false bool?
    enumerable := ← r.orElse "enumerable" false bool?
    isOwn := ← r.optional "isOwn" bool? }

/-- Reads an internal slot. -/
def InternalDescriptor.ofJson? (j : Json) : Option InternalDescriptor := do
  let r ← j.record? ["name", "value"]
  return {
    name := ← r.required "name" text?
    value := ← r.optional "value" RemoteObject.ofJson? }

/-- **Reads the answer to a query for properties.** -/
def PropertiesAnswer.ofJson? (j : Json) : Option PropertiesAnswer := do
  let r ← j.record? ["result", "internalProperties"]
  return {
    result := ← r.orElse "result" [] (list? PropertyDescriptor.ofJson?)
    internalProperties := ← r.optional "internalProperties" (list? InternalDescriptor.ofJson?) }

/-! ## Writing -/

/-- The word of a type. -/
def RemoteKind.toJson (k : RemoteKind) : Json := .string k.name

mutual

/-- Writes a preview. -/
def ObjectPreview.toJson : ObjectPreview → Json
  | ⟨kind, subtype, description, overflow, properties, entries⟩ =>
    .object <|
      [("type", kind.toJson)] ++ member "subtype" (subtype.map .string) ++
      member "description" (description.map .string) ++ [("overflow", .bool overflow)] ++
      [("properties", .array (PropertyPreview.listToJson properties))] ++
      member "entries" (EntryPreview.optionToJson entries)

/-- Writes previewed properties. -/
def PropertyPreview.listToJson : List PropertyPreview → List Json
  | [] => []
  | p :: rest => PropertyPreview.toJson p :: PropertyPreview.listToJson rest

/-- Writes a previewed property. -/
def PropertyPreview.toJson : PropertyPreview → Json
  | ⟨name, kind, value, valuePreview, subtype⟩ =>
    .object <|
      [("name", .string name), ("type", kind.toJson)] ++ member "value" (value.map .string) ++
      member "valuePreview" (ObjectPreview.optionToJson valuePreview) ++
      member "subtype" (subtype.map .string)

/-- Writes a preview if there is one. -/
def ObjectPreview.optionToJson : Option ObjectPreview → Option Json
  | none => none
  | some p => some (ObjectPreview.toJson p)

/-- Writes previewed entries if there is a list. -/
def EntryPreview.optionToJson : Option (List EntryPreview) → Option Json
  | none => none
  | some es => some (.array (EntryPreview.listToJson es))

/-- Writes previewed entries. -/
def EntryPreview.listToJson : List EntryPreview → List Json
  | [] => []
  | e :: rest => EntryPreview.toJson e :: EntryPreview.listToJson rest

/-- Writes a previewed entry. -/
def EntryPreview.toJson : EntryPreview → Json
  | ⟨key, value⟩ =>
    .object <| member "key" (ObjectPreview.optionToJson key) ++
      [("value", ObjectPreview.toJson value)]

end

/-- **Writes a remote value.** -/
def RemoteObject.toJson (v : RemoteObject) : Json :=
  .object <|
    [("type", v.kind.toJson)] ++ member "subtype" (v.subtype.map .string) ++
    member "className" (v.className.map .string) ++ member "value" v.value ++
    member "unserializableValue" (v.unserializableValue.map .string) ++
    member "description" (v.description.map .string) ++
    member "objectId" (v.objectId.map .string) ++
    member "preview" (v.preview.map ObjectPreview.toJson)

/-- Writes a regular property. -/
def PropertyDescriptor.toJson (p : PropertyDescriptor) : Json :=
  .object <|
    [("name", .string p.name)] ++ member "value" (p.value.map RemoteObject.toJson) ++
    member "writable" (p.writable.map .bool) ++ member "get" (p.get.map RemoteObject.toJson) ++
    member "set" (p.set.map RemoteObject.toJson) ++
    [("configurable", .bool p.configurable), ("enumerable", .bool p.enumerable)] ++
    member "isOwn" (p.isOwn.map .bool)

/-- Writes an internal slot. -/
def InternalDescriptor.toJson (p : InternalDescriptor) : Json :=
  .object <| [("name", .string p.name)] ++ member "value" (p.value.map RemoteObject.toJson)

/-- **Writes the answer to a query for properties.** -/
def PropertiesAnswer.toJson (a : PropertiesAnswer) : Json :=
  .object <|
    [("result", ofList PropertyDescriptor.toJson a.result)] ++
    member "internalProperties" (a.internalProperties.map (ofList InternalDescriptor.toJson))

end ConsoleLens
