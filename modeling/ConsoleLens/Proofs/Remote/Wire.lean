import ConsoleLens.Console.Event
import ConsoleLens.Console.Position
import ConsoleLens.Proofs.Json.Text
import ConsoleLens.Proofs.Remote.Preview

/-!
# Proofs/Remote/Wire — records of the protocol, written and read again

Whatever decodes as a record is written so that it decodes as the same record: **no field is lost,
gained or changed on the way** (`lossless_wire`).  An inline value is kept in the spelling in which
it is written, so it does not change either.  The text of a record is read back as well, up to the
nesting that a text may have.
-/

namespace ConsoleLens

open Json

/-! ## Remote values -/

/-- An inline value is read once as it is kept, and ever after as it is; `null` is such a value. -/
theorem fieldReturns_inline {names : List String} {j : Json} {r : Record} {name : String}
    {o : Option Json} (hr : j.record? names = some r)
    (h : r.orElse name none (fun v => (any? v).map some) = some o) :
    FieldReturns j name o (·.orElse name none fun v => (any? v).map some) o := by
  unfold Record.orElse at h
  split at h
  · obtain rfl := Option.some.inj h
    exact ⟨fun r' hr' => by rw [Record.orElse, hr'], fun k hk => by cases hk⟩
  · next v hv =>
    obtain ⟨k, hany, hk⟩ := Option.map_eq_some_iff.mp h
    obtain rfl := hk
    obtain ⟨hkept, hspelled⟩ := kept_of_any? hany
    have hpasses : Passes v k := ⟨hkept.1, hspelled⟩
    refine ⟨fun r' hr' => ?_, fun k' hk' => Option.some.inj hk' ▸ hpasses.of_get? hr hv⟩
    rw [Record.orElse, hr']
    exact congrArg (·.map some) hkept.any?_eq

theorem RemoteObject.toJson_eq (v : RemoteObject) : v.toJson = .object (written
    [("type", some v.kind.toJson), ("subtype", v.subtype.map .string),
      ("className", v.className.map .string), ("value", v.value),
      ("unserializableValue", v.unserializableValue.map .string),
      ("description", v.description.map .string), ("objectId", v.objectId.map .string),
      ("preview", v.preview.map ObjectPreview.toJson)]) := by
  simp [toJson, written, member]

theorem faithful_remote : Faithful RemoteObject.ofJson? RemoteObject.toJson where
  null := rfl
  returns {j v} h := by
    simp only [RemoteObject.ofJson?, Option.bind_eq_bind, Option.bind_eq_some_iff] at h
    obtain ⟨r, hr, kind, hkind, subtype, hsubtype, className, hclass, value, hvalue, special,
      hspecial, description, hdescription, objectId, hid, preview, hpreview, h⟩ := h
    obtain rfl := Option.some.inj h
    exact returns_record (fun _ => rfl) (by decide) (RemoteObject.toJson_eq _) rfl <|
      (faithful_kind.required hr hkind).cons <| (faithful_text.optional hr hsubtype).cons <|
      (faithful_text.optional hr hclass).cons <| (fieldReturns_inline hr hvalue).cons <|
      (faithful_text.optional hr hspecial).cons <|
      (faithful_text.optional hr hdescription).cons <| (faithful_text.optional hr hid).cons <|
      (faithful_preview.optional hr hpreview).cons .nil

/-! ## Properties -/

theorem PropertyDescriptor.toJson_eq (p : PropertyDescriptor) : p.toJson = .object (written
    [("name", some (.string p.name)), ("value", p.value.map RemoteObject.toJson),
      ("writable", p.writable.map .bool), ("get", p.get.map RemoteObject.toJson),
      ("set", p.set.map RemoteObject.toJson), ("configurable", some (.bool p.configurable)),
      ("enumerable", some (.bool p.enumerable)), ("isOwn", p.isOwn.map .bool)]) := by
  simp [toJson, written, member]

theorem faithful_property : Faithful PropertyDescriptor.ofJson? PropertyDescriptor.toJson where
  null := rfl
  returns {j p} h := by
    simp only [PropertyDescriptor.ofJson?, Option.bind_eq_bind, Option.bind_eq_some_iff] at h
    obtain ⟨r, hr, name, hname, value, hvalue, writable, hwritable, get, hget, set, hset,
      configurable, hconfigurable, enumerable, henumerable, isOwn, hown, h⟩ := h
    obtain rfl := Option.some.inj h
    exact returns_record (fun _ => rfl) (by decide) (PropertyDescriptor.toJson_eq _) rfl <|
      (faithful_text.required hr hname).cons <| (faithful_remote.optional hr hvalue).cons <|
      (faithful_bool.optional hr hwritable).cons <| (faithful_remote.optional hr hget).cons <|
      (faithful_remote.optional hr hset).cons <|
      (faithful_bool.orElse hr (returns_bool j false) hconfigurable).cons <|
      (faithful_bool.orElse hr (returns_bool j false) henumerable).cons <|
      (faithful_bool.optional hr hown).cons .nil

theorem InternalDescriptor.toJson_eq (p : InternalDescriptor) : p.toJson = .object (written
    [("name", some (.string p.name)), ("value", p.value.map RemoteObject.toJson)]) := by
  simp [toJson, written, member]

theorem faithful_internal : Faithful InternalDescriptor.ofJson? InternalDescriptor.toJson where
  null := rfl
  returns {j p} h := by
    simp only [InternalDescriptor.ofJson?, Option.bind_eq_bind, Option.bind_eq_some_iff] at h
    obtain ⟨r, hr, name, hname, value, hvalue, h⟩ := h
    obtain rfl := Option.some.inj h
    exact returns_record (fun _ => rfl) (by decide) (InternalDescriptor.toJson_eq _) rfl <|
      (faithful_text.required hr hname).cons <| (faithful_remote.optional hr hvalue).cons .nil

theorem PropertiesAnswer.toJson_eq (a : PropertiesAnswer) : a.toJson = .object (written
    [("result", some (ofList PropertyDescriptor.toJson a.result)),
      ("internalProperties", a.internalProperties.map (ofList InternalDescriptor.toJson))]) := by
  simp [toJson, written, member]

theorem faithful_answer : Faithful PropertiesAnswer.ofJson? PropertiesAnswer.toJson where
  null := rfl
  returns {j a} h := by
    simp only [PropertiesAnswer.ofJson?, Option.bind_eq_bind, Option.bind_eq_some_iff] at h
    obtain ⟨r, hr, result, hresult, internal, hinternal, h⟩ := h
    obtain rfl := Option.some.inj h
    exact returns_record (fun _ => rfl) (by decide) (PropertiesAnswer.toJson_eq _) rfl <|
      (faithful_property.list.orElse hr (returns_list (List.forall_mem_nil _)) hresult).cons <|
      (faithful_internal.list.optional hr hinternal).cons .nil

/-! ## Events and positions -/

theorem faithful_logKind : Faithful LogKind.ofJson? LogKind.toJson :=
  ⟨rfl, fun _ => ⟨congrArg some (LogKind.ofName_name _), passes_string _ _⟩⟩

theorem CallFrame.toJson_eq (f : CallFrame) : f.toJson = .object (written
    [("functionName", some (.string f.functionName)), ("scriptId", some (.string f.scriptId)),
      ("url", some (.string f.url)), ("lineNumber", some (.ofNat f.lineNumber)),
      ("columnNumber", some (.ofNat f.columnNumber))]) := rfl

theorem faithful_frame : Faithful CallFrame.ofJson? CallFrame.toJson where
  null := rfl
  returns {j f} h := by
    simp only [CallFrame.ofJson?, Option.bind_eq_bind, Option.bind_eq_some_iff] at h
    obtain ⟨r, hr, function, hfunction, script, hscript, url, hurl, line, hline, column, hcolumn,
      h⟩ := h
    obtain rfl := Option.some.inj h
    exact returns_record (fun _ => rfl) (by decide) (CallFrame.toJson_eq _) rfl <|
      (faithful_text.orElse hr (returns_text j "") hfunction).cons <|
      (faithful_text.orElse hr (returns_text j "") hscript).cons <|
      (faithful_text.required hr hurl).cons <| (faithful_index.required hr hline).cons <|
      (faithful_index.required hr hcolumn).cons .nil

theorem StackTrace.toJson_eq (s : StackTrace) : s.toJson = .object (written
    [("callFrames", some (ofList CallFrame.toJson s.callFrames))]) := rfl

theorem faithful_stack : Faithful StackTrace.ofJson? StackTrace.toJson where
  null := rfl
  returns {j s} h := by
    simp only [StackTrace.ofJson?, Option.bind_eq_bind, Option.bind_eq_some_iff] at h
    obtain ⟨r, hr, frames, hframes, h⟩ := h
    obtain rfl := Option.some.inj h
    exact returns_record (fun _ => rfl) (by decide) (StackTrace.toJson_eq _) rfl <|
      (faithful_frame.list.orElse hr (returns_list (List.forall_mem_nil _)) hframes).cons .nil

theorem ConsoleEvent.toJson_eq (e : ConsoleEvent) : e.toJson = .object (written
    [("type", some e.kind.toJson), ("args", some (ofList RemoteObject.toJson e.args)),
      ("stackTrace", e.stackTrace.map StackTrace.toJson)]) := by
  simp [toJson, written, member]

theorem faithful_event : Faithful ConsoleEvent.ofJson? ConsoleEvent.toJson where
  null := rfl
  returns {j e} h := by
    simp only [ConsoleEvent.ofJson?, Option.bind_eq_bind, Option.bind_eq_some_iff] at h
    obtain ⟨r, hr, kind, hkind, args, hargs, stack, hstack, h⟩ := h
    obtain rfl := Option.some.inj h
    exact returns_record (fun _ => rfl) (by decide) (ConsoleEvent.toJson_eq _) rfl <|
      (faithful_logKind.required hr hkind).cons <|
      (faithful_remote.list.orElse hr (returns_list (List.forall_mem_nil _)) hargs).cons <|
      (faithful_stack.optional hr hstack).cons .nil

theorem Position.toJson_eq (p : Position) : p.toJson = .object (written
    [("line", some (.ofNat p.line)), ("column", some (.ofNat p.column)),
      ("source", some (.string p.source))]) := rfl

theorem faithful_position : Faithful Position.ofJson? Position.toJson where
  null := rfl
  returns {j p} h := by
    simp only [Position.ofJson?, Option.bind_eq_bind, Option.bind_eq_some_iff] at h
    obtain ⟨r, hr, line, hline, column, hcolumn, source, hsource, h⟩ := h
    obtain rfl := Option.some.inj h
    exact returns_record (fun _ => rfl) (by decide) (Position.toJson_eq _) rfl <|
      (faithful_index.required hr hline).cons <| (faithful_index.required hr hcolumn).cons <|
      (faithful_text.required hr hsource).cons .nil

/-! ## Nothing is lost -/

/-- **A record that was read survives being written**: it is read again from what was written for
it, and from the text of that as long as a text may nest so deeply. -/
def Lossless {α : Type} (read : Json → Option α) (write : α → Json) : Prop :=
  ∀ {j a}, read j = some a → read (write a) = some a ∧
    (j.Spelled → (read? (write a).render = some (write a) ↔ (write a).nesting ≤ maxNesting))

theorem Json.Faithful.lossless {α : Type} {read : Json → Option α} {write : α → Json}
    (h : Faithful read write) : Lossless read write := fun ha =>
  have hreturns := h.returns ha
  ⟨hreturns.reread, fun hj => read?_render_iff hreturns.passes.usable (hreturns.passes.spelled hj)⟩

/-- An inline value is written if there is one, `null` as well. -/
theorem RemoteObject.member?_value (v : RemoteObject) : v.toJson.member? "value" = v.value := by
  rw [toJson_eq]
  exact lookup_written (.refl _) (by simp) (by simp)

theorem lookup_filter_of_mem {names : List String} {name : String} (hname : name ∈ names)
    (members : List (String × Json)) :
    (members.filter fun m => names.contains m.1).lookup name = members.lookup name := by
  induction members with
  | nil => rfl
  | cons m rest ih =>
    by_cases hm : m.1 ∈ names
    · rw [List.filter_cons, if_pos (List.contains_iff_mem.mpr hm), List.lookup_cons,
        List.lookup_cons, ih]
    · have hne : (name == m.1) = false := beq_false_of_ne fun heq => hm (heq ▸ hname)
      rw [List.filter_cons, if_neg (mt List.contains_iff_mem.mp hm), ih, List.lookup_cons, hne]

/-- The inline value of an object is the one that stands there, `null` as well. -/
theorem RemoteObject.value_of_ofJson? {members : List (String × Json)} {v : RemoteObject}
    (h : ofJson? (.object members) = some v) :
    v.value = (members.lookup "value").map canonical := by
  simp only [ofJson?, Option.bind_eq_bind, Option.bind_eq_some_iff] at h
  obtain ⟨r, hr, _, -, _, -, _, -, value, hvalue, _, -, _, -, _, -, _, -, h⟩ := h
  obtain rfl := Option.some.inj h
  have hget : r.get? "value" = members.lookup "value" := by
    simp only [record?] at hr
    split at hr
    · cases hr
    · cases hr
      exact lookup_filter_of_mem (by decide) members
  rw [Record.orElse, hget] at hvalue
  cases hl : members.lookup "value" with
  | none => rw [hl] at hvalue; exact (Option.some.inj hvalue).symm
  | some j =>
    rw [hl] at hvalue
    obtain ⟨k, hk, rfl⟩ := Option.map_eq_some_iff.mp hvalue
    exact congrArg some (any?_eq_some.mp hk).2.symm

theorem ObjectPreview.member?_entries (p : ObjectPreview) :
    p.toJson.member? "entries" = p.entries.map (ofList EntryPreview.toJson) := by
  rw [toJson_eq]
  exact lookup_written (.refl _) (by simp) (by simp)

theorem PropertiesAnswer.member?_internalProperties (a : PropertiesAnswer) :
    a.toJson.member? "internalProperties" =
      a.internalProperties.map (ofList InternalDescriptor.toJson) := by
  rw [toJson_eq]
  exact lookup_written (.refl _) (by simp) (by simp)

/-- A word that names no type is read as `unknown`. -/
theorem RemoteKind.ofName_eq_unknown {word : String} (h : ∀ k : RemoteKind, k.name ≠ word) :
    ofName word = unknown := by
  have hname : ofName word = unknown ∨ (ofName word).name = word := by
    unfold ofName
    split
    case h_10 => exact .inl rfl
    all_goals exact .inr rfl
  exact hname.resolve_right (h _)

/-- **What is read of the protocol survives being written and read again.**  An inline `null` is
kept apart from no value, an empty list from a list that is missing, and a word that names no type
is `unknown` for good. -/
theorem lossless_wire :
    (Lossless RemoteObject.ofJson? RemoteObject.toJson ∧
      Lossless ObjectPreview.ofJson? ObjectPreview.toJson ∧
      Lossless PropertiesAnswer.ofJson? PropertiesAnswer.toJson ∧
      Lossless ConsoleEvent.ofJson? ConsoleEvent.toJson ∧
      Lossless Position.ofJson? Position.toJson) ∧
    (∀ {members v}, RemoteObject.ofJson? (.object members) = some v →
      v.value = (members.lookup "value").map canonical) ∧
    (∀ v : RemoteObject, v.toJson.member? "value" = v.value) ∧
    (∀ p : ObjectPreview,
      p.toJson.member? "entries" = p.entries.map (ofList EntryPreview.toJson)) ∧
    (∀ a : PropertiesAnswer, a.toJson.member? "internalProperties" =
      a.internalProperties.map (ofList InternalDescriptor.toJson)) ∧
    (∀ {word}, (∀ k : RemoteKind, k.name ≠ word) →
      RemoteKind.ofJson? (.string word) = some .unknown) :=
  ⟨⟨faithful_remote.lossless, faithful_preview.lossless, faithful_answer.lossless,
    faithful_event.lossless, faithful_position.lossless⟩, RemoteObject.value_of_ofJson?,
    RemoteObject.member?_value, ObjectPreview.member?_entries,
    PropertiesAnswer.member?_internalProperties,
    fun h => congrArg some (RemoteKind.ofName_eq_unknown h)⟩

/-- A value of an unknown type, with `null` inline and a preview that has entries, but none. -/
def nullGizmo : Json := .object [("type", .object [("gizmo", .null)]), ("value", .null),
  ("extra", .unusable), ("preview", .object [("type", .string "map"), ("entries", .array [])])]

/-- The value that `nullGizmo` is read as. -/
def nullGizmoObject : RemoteObject :=
  { kind := .unknown, value := some .null,
    preview := some { kind := .unknown, entries := some [] } }

theorem lossless_wire_nullGizmo : RemoteObject.ofJson? nullGizmo = some nullGizmoObject ∧
    RemoteObject.ofJson? nullGizmoObject.toJson = some nullGizmoObject ∧
    read? nullGizmoObject.toJson.render = some nullGizmoObject.toJson := by
  have hpreview : ObjectPreview.ofJson?
      (.object [("type", .string "map"), ("entries", .array [])]) =
      some { kind := .unknown, entries := some [] } := by
    rw [ObjectPreview.ofJson?_eq]
    rfl
  have hread : RemoteObject.ofJson? nullGizmo = some nullGizmoObject := by
    change (do let p ← (ObjectPreview.ofJson? _).map some; _) = _
    rw [hpreview]
    rfl
  have hlossless := lossless_wire.1.1 hread
  refine ⟨hread, hlossless.1, (hlossless.2 ?_).mpr ?_⟩
  · simp [nullGizmo, Spelled, MembersSpelled, ItemsSpelled]
  · decide

end ConsoleLens
