import ConsoleLens.Preview.Basic

/-!
# Proofs/Preview/Truncated — an array cut short shows none of its items

A preview holds others, through its properties and through the keys and values of its entries.  What
is around one of them is a `PreviewPlace`, and `fill` puts a preview there:

    value ──▸ preview ──property──▸ preview ──key──▸ … ──▸ what stands at the place

Inside another, a preview shows through its kind, its description and its layout only
(`ShownAlike`), at whatever depth.  An array cut short has no layout, so **its items can be replaced
by any others and the value is shown as before** (`title_replaceItems`).
-/

namespace ConsoleLens

namespace Preview

theorem fieldsOf_eq_map (ps : List PropertyPreview) : fieldsOf ps = ps.map fieldOf := by
  induction ps with
  | nil => rfl
  | cons p rest ih => rw [fieldsOf, ih, List.map_cons]

/-- The text of a preview that stands for an object of a class, a subtype and a description. -/
def textAs? (className subtype description : Option String) (p : ObjectPreview) : Option String :=
  layout? className subtype description p.overflow (fieldsOf p.properties) (entryTexts p.entries)

/-- A preview inside another stands for an object of no class. -/
theorem nestedText?_some (p : ObjectPreview) :
    nestedText? (some p) = textAs? none p.subtype p.description p := by
  obtain ⟨kind, subtype, description, overflow, properties, entries⟩ := p
  rw [nestedText?, textAs?]

end Preview

open Preview

theorem Formatter.layout?_eq (v : RemoteObject) :
    layout? v = v.preview.bind (textAs? v.className v.subtype v.description) := by
  rw [layout?]
  cases v.preview <;> rfl

/-- A preview shows in a title through the layout only. -/
theorem Formatter.title_congr (f : Formatter) {v : RemoteObject} {p : Option ObjectPreview}
    (h : layout? { v with preview := p } = layout? v) :
    f.title { v with preview := p } = f.title v := by
  rw [title, title, h]
  rfl

/-! ## Arrays cut short -/

/-- **The subtypes of arrays.** -/
def IsArraySubtype (subtype : Option String) : Prop :=
  subtype = some "array" ∨ subtype = some "typedarray"

theorem Preview.isOne_array {className subtype : Option String}
    (h : className = some "Array" ∨ IsArraySubtype subtype) :
    isOne className subtype ["Array"] ["array", "typedarray"] = true := by
  rcases h with rfl | rfl | rfl
  · rfl
  · exact Bool.or_true _
  · exact Bool.or_true _

/-- **An array cut short has no layout.** -/
theorem Preview.textAs?_eq_none {className subtype description : Option String}
    {p : ObjectPreview} (h : className = some "Array" ∨ IsArraySubtype subtype)
    (hoverflow : p.overflow = true) : textAs? className subtype description p = none := by
  rw [textAs?, Preview.layout?, if_pos (isOne_array h), if_pos hoverflow]

/-! ## Previews inside previews -/

/-- **Previews that look alike inside another.** -/
structure ShownAlike (p q : ObjectPreview) : Prop where
  kind : p.kind = q.kind
  description : p.description = q.description
  text : nestedText? (some p) = nestedText? (some q)

/-- **A place in a preview**: the whole, or a place in what a property, a key or a value of an entry
holds. -/
inductive PreviewPlace where
  | whole
  | property (outer : ObjectPreview) (before : List PropertyPreview) (owner : PropertyPreview)
      (after : List PropertyPreview) (place : PreviewPlace)
  | key (outer : ObjectPreview) (before : List EntryPreview) (owner : EntryPreview)
      (after : List EntryPreview) (place : PreviewPlace)
  | value (outer : ObjectPreview) (before : List EntryPreview) (owner : EntryPreview)
      (after : List EntryPreview) (place : PreviewPlace)

/-- The preview with `p` at a place. -/
def PreviewPlace.fill (p : ObjectPreview) : PreviewPlace → ObjectPreview
  | whole => p
  | property outer before owner after place =>
    { outer with properties := before ++ { owner with valuePreview := some (place.fill p) } :: after }
  | key outer before owner after place =>
    { outer with entries := some (before ++ { owner with key := some (place.fill p) } :: after) }
  | value outer before owner after place =>
    { outer with entries := some (before ++ { owner with value := place.fill p } :: after) }

namespace ShownAlike

variable {p q : ObjectPreview}

theorem describedText_eq (h : ShownAlike p q) : describedText p = describedText q := by
  rw [describedText, describedText, h.kind, h.description]

theorem fieldOf_eq (h : ShownAlike p q) (owner : PropertyPreview) :
    fieldOf { owner with valuePreview := some p } = fieldOf { owner with valuePreview := some q } := by
  rw [fieldOf, fieldOf, h.text]

theorem entryText_key_eq (h : ShownAlike p q) (owner : EntryPreview) :
    entryText { owner with key := some p } = entryText { owner with key := some q } := by
  simp only [entryText, h.describedText_eq]

theorem entryText_value_eq (h : ShownAlike p q) (owner : EntryPreview) :
    entryText { owner with value := p } = entryText { owner with value := q } := by
  simp only [entryText, h.describedText_eq]

section Step

variable (h : ShownAlike p q) (outer : ObjectPreview) (className subtype description : Option String)

include h

theorem textAs?_property (before : List PropertyPreview) (owner : PropertyPreview)
    (after : List PropertyPreview) :
    textAs? className subtype description { outer with
        properties := before ++ { owner with valuePreview := some p } :: after } =
      textAs? className subtype description { outer with
        properties := before ++ { owner with valuePreview := some q } :: after } := by
  simp only [textAs?, fieldsOf_eq_map, List.map_append, List.map_cons, h.fieldOf_eq owner]

theorem textAs?_key (before : List EntryPreview) (owner : EntryPreview)
    (after : List EntryPreview) :
    textAs? className subtype description { outer with
        entries := some (before ++ { owner with key := some p } :: after) } =
      textAs? className subtype description { outer with
        entries := some (before ++ { owner with key := some q } :: after) } := by
  simp only [textAs?, entryTexts, Option.getD_some, List.map_append, List.map_cons,
    h.entryText_key_eq owner]

theorem textAs?_value (before : List EntryPreview) (owner : EntryPreview)
    (after : List EntryPreview) :
    textAs? className subtype description { outer with
        entries := some (before ++ { owner with value := p } :: after) } =
      textAs? className subtype description { outer with
        entries := some (before ++ { owner with value := q } :: after) } := by
  simp only [textAs?, entryTexts, Option.getD_some, List.map_append, List.map_cons,
    h.entryText_value_eq owner]

end Step

/-- **Previews that look alike at a place look alike from outside.** -/
theorem fill (h : ShownAlike p q) (place : PreviewPlace) :
    ShownAlike (place.fill p) (place.fill q) := by
  induction place with
  | whole => exact h
  | property outer before owner after place ih =>
    refine ⟨rfl, rfl, ?_⟩
    rw [nestedText?_some, nestedText?_some]
    exact ih.textAs?_property outer _ _ _ before owner after
  | key outer before owner after place ih =>
    refine ⟨rfl, rfl, ?_⟩
    rw [nestedText?_some, nestedText?_some]
    exact ih.textAs?_key outer _ _ _ before owner after
  | value outer before owner after place ih =>
    refine ⟨rfl, rfl, ?_⟩
    rw [nestedText?_some, nestedText?_some]
    exact ih.textAs?_value outer _ _ _ before owner after

/-- Below the top, whatever the value is. -/
theorem textAs?_fill (h : ShownAlike p q) {place : PreviewPlace} (hplace : place ≠ .whole)
    (className subtype description : Option String) :
    textAs? className subtype description (place.fill p) =
      textAs? className subtype description (place.fill q) := by
  cases place with
  | whole => exact absurd rfl hplace
  | property outer before owner after place => exact (h.fill place).textAs?_property ..
  | key outer before owner after place => exact (h.fill place).textAs?_key ..
  | value outer before owner after place => exact (h.fill place).textAs?_value ..

end ShownAlike

/-! ## Items replaced -/

/-- **A preview at a place is an array's**: at the top the class and the subtype of the value say
so, and below it the subtype of the preview. -/
def PreviewPlace.IsArrayOf (v : RemoteObject) (p : ObjectPreview) : PreviewPlace → Prop
  | whole => v.className = some "Array" ∨ IsArraySubtype v.subtype
  | _ => IsArraySubtype p.subtype

/-- Below the top, an array cut short looks the same whatever its items are. -/
theorem shownAlike_replaceItems {p : ObjectPreview} (harray : IsArraySubtype p.subtype)
    (hoverflow : p.overflow = true) (items : List PropertyPreview) :
    ShownAlike { p with properties := items } p where
  kind := rfl
  description := rfl
  text := by
    rw [nestedText?_some, nestedText?_some, textAs?_eq_none (.inr harray) hoverflow]
    exact textAs?_eq_none (.inr harray) hoverflow

/-- **No title shows an item of an array cut short.**  Wherever its preview stands, in the value or
in previews inside it at any depth, other items in it leave the title as it is. -/
theorem Formatter.title_replaceItems (f : Formatter) {v : RemoteObject} {place : PreviewPlace}
    {p : ObjectPreview} (hv : v.preview = some (place.fill p)) (harray : place.IsArrayOf v p)
    (hoverflow : p.overflow = true) (items : List PropertyPreview) :
    f.title { v with preview := some (place.fill { p with properties := items }) } = f.title v := by
  refine f.title_congr ?_
  rw [layout?_eq, layout?_eq, hv, Option.bind_some, Option.bind_some]
  by_cases hplace : place = .whole
  · subst hplace
    have hnone (q : ObjectPreview) (hq : q.overflow = true) :
        textAs? v.className v.subtype v.description q = none := textAs?_eq_none harray hq
    exact (hnone { p with properties := items } hoverflow).trans (hnone p hoverflow).symm
  · have hbelow : IsArraySubtype p.subtype := by
      cases place with
      | whole => exact absurd rfl hplace
      | _ => exact harray
    exact (shownAlike_replaceItems hbelow hoverflow items).textAs?_fill hplace _ _ _

/-- An array of nine items, only one of which is in the preview. -/
def nineItems : ObjectPreview where
  kind := .object
  subtype := some "array"
  description := some "Array(9)"
  overflow := true
  properties := [{ name := "0", kind := .string, value := some "secret" }]

/-- What the promise in the field `tags` was fulfilled with. -/
def fulfilledTags : PreviewPlace :=
  .property { kind := .object } [] { name := "tags", kind := .object, value := some "Promise" } [] <|
    .property { kind := .object, subtype := some "promise", description := some "Promise" }
      [{ name := "[[PromiseState]]", kind := .string, value := some "fulfilled" }]
      { name := "[[PromiseResult]]", kind := .object, value := some "Array(9)" } [] .whole

/-- Only the count of the nine items shows, be there one of them in the preview or none. -/
theorem Formatter.title_replaceItems_fulfilledTags :
    let v : RemoteObject := { kind := .object, preview := some (fulfilledTags.fill nineItems) }
    fulfilledTags.IsArrayOf v nineItems ∧ nineItems.overflow = true ∧
      title {} { v with preview := some (fulfilledTags.fill { nineItems with properties := [] }) } =
        title {} v ∧
      title {} v = "\x7btags: Promise: \x7b<fulfilled>: Array(9)\x7d\x7d" := by
  intro v
  have harray : fulfilledTags.IsArrayOf v nineItems := .inl rfl
  exact ⟨harray, rfl, title_replaceItems {} rfl harray rfl [], by decide +kernel⟩

end ConsoleLens
