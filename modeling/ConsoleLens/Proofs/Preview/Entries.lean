import ConsoleLens.Proofs.Preview.Reworded
import ConsoleLens.Proofs.Preview.Truncated

/-!
# Proofs/Preview/Entries — the entries that a title shows

A layout takes what it shows from one place: the fields of an object or an array, the result of a
promise, the entries of a map.  `shownEntries` goes the same ways and comes to the entries.

Each description is put on one line except those of the keys and values of these entries, which are
taken as they are.  So a title is made of texts that stay, however descriptions are laid out, and of
the texts of the entries (`Formatter.frames_title`).
-/

namespace ConsoleLens

open Preview

/-! ## What is shown of a value -/

/-- The entries that a layout shows: those of its fields, of a promise's result, or of a map. -/
def shownOf (className subtype : Option String) (overflow : Bool)
    (fields : List (List EntryPreview)) (entries : List EntryPreview) : List EntryPreview :=
  if isOne className subtype ["Array"] ["array", "typedarray"] then
    if overflow then [] else fields.flatten
  else if isOne className subtype ["Promise"] ["promise"] then fields[1]?.getD []
  else if isOne className subtype ["Map", "Set", "WeakMap", "WeakSet"]
      ["map", "set", "weakmap", "weakset"] then entries
  else if subtype.isNone then fields.flatten
  else []

mutual

/-- The entries that are shown with each of some properties. -/
def PropertyPreview.shownEntriesAll : List PropertyPreview → List (List EntryPreview)
  | [] => []
  | p :: rest => PropertyPreview.shownEntries p :: PropertyPreview.shownEntriesAll rest

/-- The entries that are shown with a property. -/
def PropertyPreview.shownEntries : PropertyPreview → List EntryPreview
  | ⟨_, kind, _, valuePreview, _⟩ =>
    if kind = .object then ObjectPreview.shownEntries valuePreview else []

/-- The entries that are shown of a preview inside another. -/
def ObjectPreview.shownEntries : Option ObjectPreview → List EntryPreview
  | none => []
  | some ⟨_, subtype, _, overflow, properties, entries⟩ =>
    shownOf none subtype overflow (PropertyPreview.shownEntriesAll properties) (entries.getD [])

end

theorem PropertyPreview.shownEntriesAll_eq_map (ps : List PropertyPreview) :
    shownEntriesAll ps = ps.map shownEntries := by
  induction ps with
  | nil => rfl
  | cons p rest ih => rw [shownEntriesAll, ih, List.map_cons]

/-- The entries that are shown of a preview that stands for an object of a class and a subtype. -/
def ObjectPreview.shownAs (className subtype : Option String) (p : ObjectPreview) :
    List EntryPreview :=
  shownOf className subtype p.overflow (p.properties.map PropertyPreview.shownEntries)
    (p.entries.getD [])

theorem ObjectPreview.shownEntries_some (p : ObjectPreview) :
    shownEntries (some p) = p.shownAs none p.subtype := by
  obtain ⟨kind, subtype, description, overflow, properties, entries⟩ := p
  rw [shownEntries, shownAs, PropertyPreview.shownEntriesAll_eq_map]

/-- Whether a value is laid out from its preview: it is an object, neither a place in a script nor
carried inline. -/
def RemoteObject.isLaidOut (v : RemoteObject) : Bool :=
  !v.hasSubtype Formatter.placeSubtype && !v.isInline && v.kind = .object

/-- **The entries that are shown in the title of a value.** -/
def RemoteObject.shownEntries (v : RemoteObject) : List EntryPreview :=
  if v.isLaidOut then v.preview.elim [] (ObjectPreview.shownAs v.className v.subtype) else []

theorem PropertyPreview.shownEntries_eq (q : PropertyPreview) :
    q.shownEntries = if q.kind = .object then ObjectPreview.shownEntries q.valuePreview else [] := by
  obtain ⟨name, kind, value, valuePreview, subtype⟩ := q
  rw [shownEntries]

/-- What is shown of changed entries are the changed entries. -/
theorem shownOf_map (f : EntryPreview → EntryPreview) (className subtype : Option String)
    (overflow : Bool) (fields : List (List EntryPreview)) (entries : List EntryPreview) :
    shownOf className subtype overflow (fields.map (List.map f)) (entries.map f) =
      (shownOf className subtype overflow fields entries).map f := by
  unfold shownOf
  repeat' split
  · rfl
  · rw [List.map_flatten]
  · rw [List.getElem?_map]
    cases fields[1]? <;> rfl
  · rfl
  · rw [List.map_flatten]
  · rfl

theorem ObjectPreview.shownAs_reword (g : String → String) (p : ObjectPreview) :
    ∀ className subtype, (p.reword g).shownAs className subtype =
      (p.shownAs className subtype).map (EntryPreview.reword g) := by
  induction p using ObjectPreview.induction
    (Q := fun q => (q.reword g).shownEntries = q.shownEntries.map (EntryPreview.reword g))
    (R := fun _ => True) with
  | object p hproperties _ =>
    intro className subtype
    have hfields : p.properties.map (PropertyPreview.shownEntries ∘ PropertyPreview.reword g) =
        (p.properties.map PropertyPreview.shownEntries).map (List.map (EntryPreview.reword g)) := by
      rw [List.map_map]
      exact List.map_congr_left hproperties
    have hentries : (p.entries.map (List.map (EntryPreview.reword g))).getD [] =
        (p.entries.getD []).map (EntryPreview.reword g) := by cases p.entries <;> rfl
    rw [reword_eq, shownAs, shownAs]
    dsimp only
    rw [List.map_map, hfields, hentries, shownOf_map]
  | property q hpreview =>
    rw [PropertyPreview.shownEntries_eq, PropertyPreview.shownEntries_eq, PropertyPreview.reword_eq]
    dsimp only
    split
    · cases hq : q.valuePreview with
      | none => rfl
      | some p =>
        rw [Option.map_some, shownEntries_some, shownEntries_some]
        have hsubtype : (p.reword g).subtype = p.subtype := by rw [reword_eq]
        rw [hsubtype]
        exact hpreview p hq none p.subtype
    · rfl
  | entry => trivial

theorem RemoteObject.isLaidOut_reword (g : String → String) (v : RemoteObject) :
    (v.reword g).isLaidOut = v.isLaidOut := rfl

theorem RemoteObject.shownEntries_reword (g : String → String) (v : RemoteObject) :
    (v.reword g).shownEntries = v.shownEntries.map (EntryPreview.reword g) := by
  rw [shownEntries, shownEntries, isLaidOut_reword]
  split
  · rw [reword]
    cases v.preview with
    | none => rfl
    | some p => exact p.shownAs_reword g _ _
  · rfl

/-! ## Texts around entries -/

/-- **A text shows entries, and is changed only where it shows them**: `s` is made of texts that
stay and of the texts of the entries, and `t` is `s` with the entries changed. -/
inductive Frames (g : String → String) : List EntryPreview → String → String → Prop where
  | text (s : String) : Frames g [] s s
  | entry (e : EntryPreview) : Frames g [e] (entryText e) (entryText (e.reword g))
  | append {es es' : List EntryPreview} {s s' t t' : String} (h : Frames g es s t)
      (h' : Frames g es' s' t') : Frames g (es ++ es') (s ++ s') (t ++ t')

namespace Frames

variable {g : String → String} {es : List EntryPreview} {s t : String} {α : Type}

theorem text_append (a : String) (h : Frames g es s t) : Frames g es (a ++ s) (a ++ t) :=
  (Frames.text a).append h

theorem append_text (h : Frames g es s t) (a : String) : Frames g es (s ++ a) (t ++ a) := by
  simpa using h.append (Frames.text a)

theorem braced (h : Frames g es s t) : Frames g es (Preview.braced s) (Preview.braced t) :=
  (h.text_append _).append_text _

/-- What is shown between commas is shown. -/
theorem commas {shown : α → List EntryPreview} {before after : α → String} {xs : List α}
    (h : ∀ x ∈ xs, Frames g (shown x) (before x) (after x)) :
    Frames g (xs.map shown).flatten (Preview.commas (xs.map before))
      (Preview.commas (xs.map after)) := by
  induction xs with
  | nil => exact .text _
  | cons x rest ih =>
    obtain ⟨hx, hrest⟩ := List.forall_mem_cons.mp h
    cases rest with
    | nil => simpa [Preview.commas] using hx
    | cons y rest =>
      simpa [Preview.commas, String.intercalate_cons_cons, String.append_assoc] using
        (hx.append_text ", ").append (ih hrest)

/-- The fields of an object show what each of them shows, a mark for those left out nothing. -/
theorem fields {before after : PropertyPreview → String} {ps : List PropertyPreview}
    (h : ∀ p ∈ ps, Frames g p.shownEntries (before p) (after p)) (overflow : Bool) :
    Frames g (ps.map PropertyPreview.shownEntries).flatten
      (Preview.commas (if overflow then ps.map before ++ ["…"] else ps.map before))
      (Preview.commas (if overflow then ps.map after ++ ["…"] else ps.map after)) := by
  cases overflow with
  | false => exact commas h
  | true =>
    have hmark : ∀ o ∈ ps.map some ++ [none], Frames g (o.elim [] PropertyPreview.shownEntries)
        (o.elim "…" before) (o.elim "…" after) := by
      intro o ho
      rcases List.mem_append.mp ho with ho | ho
      · obtain ⟨p, hp, rfl⟩ := List.mem_map.mp ho
        exact h p hp
      · obtain rfl := List.mem_singleton.mp ho
        exact .text _
    simpa [Function.comp_def] using commas hmark

end Frames

/-- **Layouts that show entries**: there is none on either side, or one on both. -/
inductive FramesLayout (g : String → String) (es : List EntryPreview) :
    Option String → Option String → Prop where
  | none (h : es = []) : FramesLayout g es none none
  | some {s t : String} (h : Frames g es s t) : FramesLayout g es (some s) (some t)

/-- What stands in for a layout shows no entry. -/
theorem FramesLayout.getD {g : String → String} {es : List EntryPreview} {o o' : Option String}
    (h : FramesLayout g es o o') (s : String) : Frames g es (o.getD s) (o'.getD s) := by
  cases h with
  | none h => exact h ▸ .text s
  | some h => exact h

section Layout

variable {g : String → String} {p : ObjectPreview}

theorem Preview.fieldOf_name (q : PropertyPreview) : (fieldOf q).name = q.name := by
  obtain ⟨name, kind, value, valuePreview, subtype⟩ := q
  rfl

theorem Preview.fieldOf_value (q : PropertyPreview) : (fieldOf q).value = q.value := by
  obtain ⟨name, kind, value, valuePreview, subtype⟩ := q
  rfl

theorem Preview.fieldOf_text (q : PropertyPreview) : (fieldOf q).text =
    if q.kind = .object then
      (nestedText? q.valuePreview).getD (quoted (q.kind = .string) (q.value.getD ""))
    else quoted (q.kind = .string) (q.value.getD "") := by
  obtain ⟨name, kind, value, valuePreview, subtype⟩ := q
  rfl

theorem Preview.fieldOf_name_reword (q : PropertyPreview) :
    (fieldOf (q.reword g)).name = (fieldOf q).name := by
  rw [fieldOf_name, fieldOf_name, PropertyPreview.reword_eq]

theorem Preview.fieldOf_value_reword (q : PropertyPreview) :
    (fieldOf (q.reword g)).value = (fieldOf q).value := by
  rw [fieldOf_value, fieldOf_value, PropertyPreview.reword_eq]

/-- The entries of a map are shown. -/
theorem frames_entryTexts (entries : Option (List EntryPreview)) :
    Frames g (entries.getD []) (commas (entryTexts entries))
      (commas (entryTexts (entries.map (List.map (EntryPreview.reword g))))) := by
  cases entries with
  | none => exact .text _
  | some es =>
    have hes : Frames g (es.map ([·])).flatten (commas (es.map entryText))
        (commas (es.map fun e => entryText (e.reword g))) := .commas fun e _ => .entry e
    rw [← List.flatMap_def, List.flatMap_singleton'] at hes
    rw [entryTexts, entryTexts, Option.map_some, Option.getD_some, Option.getD_some, List.map_map]
    exact hes

/-- A promise shows the value of its first property and what is shown of its second. -/
theorem frames_promise {qs : List PropertyPreview}
    (h : ∀ q ∈ qs, Frames g q.shownEntries (fieldOf q).text (fieldOf (q.reword g)).text) :
    let text (fields : List Field) := "<" ++ (fields.head?.bind (·.value)).getD "" ++ ">: " ++
      (fields[1]?.map (·.text)).getD ""
    Frames g ((qs.map PropertyPreview.shownEntries)[1]?.getD []) (text (qs.map fieldOf))
      (text (qs.map (fieldOf ∘ PropertyPreview.reword g))) := by
  intro text
  cases qs with
  | nil => exact .text _
  | cons state rest =>
    have hstate : (fieldOf (state.reword g)).value = (fieldOf state).value :=
      fieldOf_value_reword state
    cases rest with
    | nil => simpa [text, hstate] using Frames.text _
    | cons result rest =>
      have hresult := h result (List.mem_cons_of_mem _ (List.mem_cons_self ..))
      simpa [text, hstate] using hresult.text_append _

/-- **A layout shows the entries of its fields or its own**, and its description as it is
described. -/
theorem framesLayout_textAs? (hp : ∀ q ∈ p.properties,
      Frames g q.shownEntries (fieldOf q).text (fieldOf (q.reword g)).text)
    (className subtype : Option String) {description description' : Option String}
    (hdescription : describe description' = describe description) :
    FramesLayout g (p.shownAs className subtype) (textAs? className subtype description p)
      (textAs? className subtype description' (p.reword g)) := by
  rw [ObjectPreview.reword_eq, textAs?, textAs?, ObjectPreview.shownAs]
  simp only [fieldsOf_eq_map, List.map_map, layout?, shownOf, hdescription]
  by_cases harray : isOne className subtype ["Array"] ["array", "typedarray"] = true
  · simp only [if_pos harray]
    cases p.overflow with
    | true => exact .none rfl
    | false => exact .some (((Frames.commas hp).text_append _).append_text _)
  by_cases hpromise : isOne className subtype ["Promise"] ["promise"] = true
  · simp only [if_neg harray, if_pos hpromise]
    exact .some (.text_append _ (.braced (frames_promise hp)))
  by_cases hmap : isOne className subtype ["Map", "Set", "WeakMap", "WeakSet"]
      ["map", "set", "weakmap", "weakset"] = true
  · simp only [if_neg harray, if_neg hpromise, if_pos hmap]
    exact .some (.text_append _ (.braced (frames_entryTexts p.entries)))
  by_cases hplain : subtype.isNone = true
  · simp only [if_neg harray, if_neg hpromise, if_neg hmap, if_pos hplain]
    refine .some (.text_append _ (.braced (Frames.fields (fun q hq => ?_) p.overflow)))
    simp only [Function.comp_apply, fieldOf_name_reword]
    exact (hp q hq).text_append _
  · simp only [if_neg harray, if_neg hpromise, if_neg hmap, if_neg hplain]
    exact .none rfl

/-- A description is put on one line, however it was laid out. -/
theorem describe_rewordText (hg : ∀ s, Text.words (g s) = Text.words s) (kind : RemoteKind)
    (description : Option String) :
    describe (rewordText g kind description) = describe description := by
  unfold rewordText
  split
  · rfl
  · cases description with
    | none => rfl
    | some s => exact Text.collapse_eq_iff.mpr (hg s)

/-- **What is shown of a property inside a preview**, whatever stands inside it. -/
theorem frames_fieldOf (hg : ∀ s, Text.words (g s) = Text.words s) (p : ObjectPreview) :
    ∀ q ∈ p.properties, Frames g q.shownEntries (fieldOf q).text (fieldOf (q.reword g)).text := by
  induction p using ObjectPreview.induction
    (Q := fun q => Frames g q.shownEntries (fieldOf q).text (fieldOf (q.reword g)).text)
    (R := fun _ => True) with
  | object p hproperties _ => exact hproperties
  | property q hpreview =>
    rw [fieldOf_text, fieldOf_text, PropertyPreview.shownEntries_eq, PropertyPreview.reword_eq]
    dsimp only
    split
    · refine FramesLayout.getD ?_ _
      cases hq : q.valuePreview with
      | none => exact .none rfl
      | some p =>
        have hsubtype : (p.reword g).subtype = p.subtype := by rw [ObjectPreview.reword_eq]
        have hdescription : describe (p.reword g).description = describe p.description := by
          rw [ObjectPreview.reword_eq]
          exact describe_rewordText hg p.kind p.description
        rw [Option.map_some, nestedText?_some, nestedText?_some, hsubtype,
          ObjectPreview.shownEntries_some]
        exact framesLayout_textAs? (hpreview p hq) none p.subtype hdescription
    · exact .text _
  | entry => trivial

end Layout

namespace Formatter

/-- The text of a value that is not laid out: of a place in a script, of a value that is carried
inline, or of no value at all. -/
def plainText? (f : Formatter) (v : RemoteObject) : Option String :=
  if v.hasSubtype placeSubtype then f.place? v
  else (v.unserializableValue.or (v.value.map inlineText)).or
    (if v.kind = .undefined then some "undefined" else none)

/-- **A value is laid out or plain**, and else it is described. -/
theorem title_eq (f : Formatter) (v : RemoteObject) : f.title v =
    (if v.isLaidOut then layout? v else f.plainText? v).getD
      (fallback v.className v.description) := by
  rw [title, plainText?, RemoteObject.isLaidOut, RemoteObject.isInline]
  by_cases hplace : v.hasSubtype placeSubtype = true
  · simp [hplace]
  · cases v.unserializableValue <;> cases v.value <;> by_cases hkind : v.kind = .undefined <;>
      by_cases hobject : v.kind = .object <;> simp [hplace, hkind, hobject]

/-- **A title shows the entries that are shown, and is changed only there**, if the words of every
description are kept. -/
theorem frames_title {g : String → String} (hg : ∀ s, Text.words (g s) = Text.words s)
    (f : Formatter) (v : RemoteObject) :
    Frames g v.shownEntries (f.title v) (f.title (v.reword g)) := by
  have hplain : f.plainText? (v.reword g) = f.plainText? v := rfl
  have hfallback : fallback (v.reword g).className (v.reword g).description =
      fallback v.className v.description := by
    simp only [fallback, RemoteObject.reword, describe_rewordText hg]
  rw [title_eq, title_eq, v.isLaidOut_reword, hplain, hfallback, RemoteObject.shownEntries]
  split
  · refine FramesLayout.getD ?_ _
    rw [layout?_eq, layout?_eq, RemoteObject.reword]
    cases v.preview with
    | none => exact .none rfl
    | some p =>
      exact framesLayout_textAs? (frames_fieldOf hg p) _ _ (describe_rewordText hg _ _)
  · exact .text _

end Formatter

end ConsoleLens
