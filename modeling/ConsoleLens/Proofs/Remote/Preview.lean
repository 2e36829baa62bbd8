import ConsoleLens.Proofs.Json.Fields

/-!
# Proofs/Remote/Preview — previews on the wire

Previews hold each other, through properties and through entries.  Each reader comes to one field
after another, as for a record that holds nothing of its own kind (`ObjectPreview.ofJson?_eq`), and
**every preview is read again from what is written for it** (`ObjectPreview.returns`), by induction
on the preview.
-/

namespace ConsoleLens

open Json

/-! ## One field after another -/

theorem attach_mapM {α : Type} {read : Json → Option α} (items : List Json) :
    (items.attach.mapM fun ⟨item, _⟩ => read item) = items.mapM read := by
  rw [List.mapM_subtype fun _ _ => rfl, List.unattach_attach]

theorem PropertyPreview.listOfJson?_eq : listOfJson? = list? ofJson? := by
  funext j
  unfold listOfJson?
  cases j with
  | array items => exact attach_mapM items
  | _ => rfl

theorem EntryPreview.listOfJson?_eq : listOfJson? = list? ofJson? := by
  funext j
  unfold listOfJson?
  cases j with
  | array items => exact attach_mapM items
  | _ => rfl

theorem ObjectPreview.ofJson?_eq (j : Json) : ofJson? j = do
    let r ← j.record? fields
    return {
      kind := ← r.required "type" RemoteKind.ofJson?
      subtype := ← r.optional "subtype" text?
      description := ← r.optional "description" text?
      overflow := ← r.orElse "overflow" false bool?
      properties := ← r.orElse "properties" [] (list? PropertyPreview.ofJson?)
      entries := ← r.optional "entries" (list? EntryPreview.ofJson?) } := by
  rw [← PropertyPreview.listOfJson?_eq, ← EntryPreview.listOfJson?_eq]
  unfold ofJson?
  split
  · next hr => rw [hr]; rfl
  · next r hr =>
    rw [hr]
    refine bind_congr fun kind => bind_congr fun subtype => bind_congr fun description =>
      bind_congr fun overflow => ?_
    unfold Record.orElse Record.optional nullable?
    cases r.get? "properties" with
    | none =>
      cases r.get? "entries" with
      | none => rfl
      | some v => cases v <;> rfl
    | some properties =>
      cases r.get? "entries" with
      | none => rfl
      | some v => cases v <;> rfl

theorem PropertyPreview.ofJson?_eq (j : Json) : ofJson? j = do
    let r ← j.record? fields
    return {
      name := ← r.required "name" text?
      kind := ← r.required "type" RemoteKind.ofJson?
      value := ← r.optional "value" text?
      valuePreview := ← r.optional "valuePreview" ObjectPreview.ofJson?
      subtype := ← r.optional "subtype" text? } := by
  unfold ofJson?
  split
  · next hr => rw [hr]; rfl
  · next r hr =>
    rw [hr]
    refine bind_congr fun name => bind_congr fun kind => bind_congr fun value => ?_
    unfold Record.optional nullable?
    cases r.get? "valuePreview" with
    | none => rfl
    | some v => cases v <;> rfl

theorem EntryPreview.ofJson?_eq (j : Json) : ofJson? j = do
    let r ← j.record? fields
    return {
      key := ← r.optional "key" ObjectPreview.ofJson?
      value := ← r.required "value" ObjectPreview.ofJson? } := by
  unfold ofJson?
  split
  · next hr => rw [hr]; rfl
  · next r hr =>
    rw [hr]
    change _ = (r.optional "key" ObjectPreview.ofJson? >>= _)
    unfold Record.optional Record.required nullable?
    cases r.get? "key" with
    | none => cases r.get? "value" <;> rfl
    | some key => cases key <;> cases r.get? "value" <;> rfl

/-! ## What is written -/

theorem PropertyPreview.listToJson_eq (ps : List PropertyPreview) :
    listToJson ps = ps.map toJson := by
  induction ps with
  | nil => rfl
  | cons p rest ih => rw [listToJson, ih, List.map_cons]

theorem EntryPreview.listToJson_eq (es : List EntryPreview) : listToJson es = es.map toJson := by
  induction es with
  | nil => rfl
  | cons e rest ih => rw [listToJson, ih, List.map_cons]

/-- The fields of a preview with their values. -/
theorem ObjectPreview.toJson_eq (p : ObjectPreview) : p.toJson = .object (written
    [("type", some p.kind.toJson), ("subtype", p.subtype.map .string),
      ("description", p.description.map .string), ("overflow", some (.bool p.overflow)),
      ("properties", some (ofList PropertyPreview.toJson p.properties)),
      ("entries", p.entries.map (ofList EntryPreview.toJson))]) := by
  obtain ⟨kind, subtype, description, overflow, properties, entries⟩ := p
  rw [toJson, PropertyPreview.listToJson_eq]
  cases entries with
  | none => simp [written, member, EntryPreview.optionToJson, ofList]
  | some es => simp [written, member, EntryPreview.optionToJson, EntryPreview.listToJson_eq, ofList]

theorem PropertyPreview.toJson_eq (p : PropertyPreview) : p.toJson = .object (written
    [("name", some (.string p.name)), ("type", some p.kind.toJson),
      ("value", p.value.map .string), ("valuePreview", p.valuePreview.map ObjectPreview.toJson),
      ("subtype", p.subtype.map .string)]) := by
  obtain ⟨name, kind, value, _ | preview, subtype⟩ := p
  · simp [toJson, written, member, ObjectPreview.optionToJson]
  · simp [toJson, written, member, ObjectPreview.optionToJson]

theorem EntryPreview.toJson_eq (e : EntryPreview) : e.toJson = .object (written
    [("key", e.key.map ObjectPreview.toJson), ("value", some e.value.toJson)]) := by
  obtain ⟨_ | key, value⟩ := e
  · simp [toJson, written, member, ObjectPreview.optionToJson]
  · simp [toJson, written, member, ObjectPreview.optionToJson]

/-! ## Types -/

theorem returns_kind (j : Json) (k : RemoteKind) :
    Returns j RemoteKind.ofJson? RemoteKind.toJson k :=
  ⟨congrArg some k.ofName_name, passes_string j _⟩

theorem faithful_kind : Faithful RemoteKind.ofJson? RemoteKind.toJson :=
  ⟨rfl, fun _ => returns_kind _ _⟩

/-! ## Every preview returns -/

theorem ObjectPreview.ofJson?_null : ofJson? .null = none := by rw [ofJson?_eq]; rfl

mutual

/-- **Every preview is read again from what is written for it.** -/
theorem ObjectPreview.returns (j : Json) : ∀ p : ObjectPreview,
    Returns j ObjectPreview.ofJson? ObjectPreview.toJson p
  | ⟨kind, subtype, description, overflow, properties, entries⟩ =>
    returns_record ObjectPreview.ofJson?_eq (by decide) (ObjectPreview.toJson_eq _) rfl <|
      (returns_kind j kind).required.cons <| (fieldReturns_text j subtype).cons <|
      (fieldReturns_text j description).cons <| (returns_bool j overflow).orElse.cons <|
      (returns_list (PropertyPreview.returns_all j properties)).orElse.cons <|
      (fieldReturns_optional rfl (EntryPreview.returns_option j entries)).cons .nil

theorem PropertyPreview.returns_all (j : Json) : ∀ ps : List PropertyPreview, ∀ p ∈ ps,
    Returns j PropertyPreview.ofJson? PropertyPreview.toJson p
  | [], _, h => by cases h
  | p :: rest, q, h => by
    rcases List.mem_cons.mp h with heq | h
    · exact heq ▸ PropertyPreview.returns j p
    · exact PropertyPreview.returns_all j rest q h

theorem PropertyPreview.returns (j : Json) : ∀ p : PropertyPreview,
    Returns j PropertyPreview.ofJson? PropertyPreview.toJson p
  | ⟨name, kind, value, preview, subtype⟩ =>
    returns_record PropertyPreview.ofJson?_eq (by decide) (PropertyPreview.toJson_eq _) rfl <|
      (returns_text j name).required.cons <| (returns_kind j kind).required.cons <|
      (fieldReturns_text j value).cons <|
      (fieldReturns_optional ObjectPreview.ofJson?_null
        (ObjectPreview.returns_option j preview)).cons <|
      (fieldReturns_text j subtype).cons .nil

theorem ObjectPreview.returns_option (j : Json) : ∀ o : Option ObjectPreview, ∀ p ∈ o,
    Returns j ObjectPreview.ofJson? ObjectPreview.toJson p
  | none, _, h => by cases h
  | some p, _, h => Option.some.inj h ▸ ObjectPreview.returns j p

theorem EntryPreview.returns_option (j : Json) : ∀ o : Option (List EntryPreview), ∀ es ∈ o,
    Returns j (list? EntryPreview.ofJson?) (ofList EntryPreview.toJson) es
  | none, _, h => by cases h
  | some es, _, h => Option.some.inj h ▸ returns_list (EntryPreview.returns_all j es)

theorem EntryPreview.returns_all (j : Json) : ∀ es : List EntryPreview, ∀ e ∈ es,
    Returns j EntryPreview.ofJson? EntryPreview.toJson e
  | [], _, h => by cases h
  | e :: rest, q, h => by
    rcases List.mem_cons.mp h with heq | h
    · exact heq ▸ EntryPreview.returns j e
    · exact EntryPreview.returns_all j rest q h

theorem EntryPreview.returns (j : Json) : ∀ e : EntryPreview,
    Returns j EntryPreview.ofJson? EntryPreview.toJson e
  | ⟨key, value⟩ =>
    returns_record EntryPreview.ofJson?_eq (by decide) (EntryPreview.toJson_eq _) rfl <|
      (fieldReturns_optional ObjectPreview.ofJson?_null
        (ObjectPreview.returns_option j key)).cons <|
      (ObjectPreview.returns j value).required.cons .nil

end

theorem faithful_preview : Faithful ObjectPreview.ofJson? ObjectPreview.toJson :=
  ⟨ObjectPreview.ofJson?_null, fun _ => ObjectPreview.returns _ _⟩

end ConsoleLens
