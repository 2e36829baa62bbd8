import ConsoleLens.Proofs.Text.Words
import ConsoleLens.Remote.Object

/-!
# Proofs/Preview/Reworded — values with other descriptions

A value is described at many depths: itself, what the properties of its preview hold, and the keys
and values of entries.  `reword` changes every description but a string's, which is its contents.

Two values have **the same words** (`RemoteObject.SameWords`) when they differ only in the blanks of
their descriptions.  So have a value and its rewording, if that keeps the words of each description
(`RemoteObject.sameWords_reword`).
-/

namespace ConsoleLens

/-! ## Descriptions that are changed -/

/-- A description changed by `g`, unless it is a string's. -/
def rewordText (g : String → String) (kind : RemoteKind) (description : Option String) :
    Option String :=
  if kind = .string then description else description.map g

mutual

/-- The preview with every description of what is no string changed, at any depth. -/
def ObjectPreview.reword (g : String → String) : ObjectPreview → ObjectPreview
  | ⟨kind, subtype, description, overflow, properties, entries⟩ =>
    { kind, subtype, overflow
      description := rewordText g kind description
      properties := PropertyPreview.rewordAll g properties
      entries := EntryPreview.rewordOption g entries }

/-- The properties with their descriptions changed. -/
def PropertyPreview.rewordAll (g : String → String) : List PropertyPreview → List PropertyPreview
  | [] => []
  | p :: rest => PropertyPreview.reword g p :: PropertyPreview.rewordAll g rest

/-- The property with its descriptions changed. -/
def PropertyPreview.reword (g : String → String) : PropertyPreview → PropertyPreview
  | ⟨name, kind, value, valuePreview, subtype⟩ =>
    { name, kind, value, subtype
      valuePreview := ObjectPreview.rewordOption g valuePreview }

/-- The preview, if any, with its descriptions changed. -/
def ObjectPreview.rewordOption (g : String → String) : Option ObjectPreview → Option ObjectPreview
  | none => none
  | some p => some (ObjectPreview.reword g p)

/-- The entries, if any, with their descriptions changed. -/
def EntryPreview.rewordOption (g : String → String) :
    Option (List EntryPreview) → Option (List EntryPreview)
  | none => none
  | some es => some (EntryPreview.rewordAll g es)

/-- The entries with their descriptions changed. -/
def EntryPreview.rewordAll (g : String → String) : List EntryPreview → List EntryPreview
  | [] => []
  | e :: rest => EntryPreview.reword g e :: EntryPreview.rewordAll g rest

/-- The entry with its descriptions changed. -/
def EntryPreview.reword (g : String → String) : EntryPreview → EntryPreview
  | ⟨key, value⟩ =>
    { key := ObjectPreview.rewordOption g key
      value := ObjectPreview.reword g value }

end

/-- **The value with every description of what is no string changed**, its own and those in its
preview. -/
def RemoteObject.reword (g : String → String) (v : RemoteObject) : RemoteObject :=
  { v with
    description := rewordText g v.kind v.description
    preview := v.preview.map (ObjectPreview.reword g) }

/-- **Values that differ in blanks only**: they are the same when each description of what is no
string is put on one line, with one space between its words. -/
def RemoteObject.SameWords (v w : RemoteObject) : Prop :=
  v.reword Text.collapse = w.reword Text.collapse

theorem rewordText_rewordText (g g' : String → String) (kind : RemoteKind)
    (description : Option String) :
    rewordText g kind (rewordText g' kind description) = rewordText (g ∘ g') kind description := by
  unfold rewordText
  split
  · rfl
  · rw [Option.map_map]

section Reword

variable (g : String → String)

theorem PropertyPreview.rewordAll_eq_map (ps : List PropertyPreview) :
    rewordAll g ps = ps.map (reword g) := by
  induction ps with
  | nil => rfl
  | cons p rest ih => rw [rewordAll, ih, List.map_cons]

theorem EntryPreview.rewordAll_eq_map (es : List EntryPreview) :
    rewordAll g es = es.map (reword g) := by
  induction es with
  | nil => rfl
  | cons e rest ih => rw [rewordAll, ih, List.map_cons]

theorem ObjectPreview.reword_eq (p : ObjectPreview) : p.reword g = { p with
    description := rewordText g p.kind p.description
    properties := p.properties.map (PropertyPreview.reword g)
    entries := p.entries.map (List.map (EntryPreview.reword g)) } := by
  obtain ⟨kind, subtype, description, overflow, properties, entries⟩ := p
  rw [reword, PropertyPreview.rewordAll_eq_map]
  cases entries with
  | none => rfl
  | some es => rw [EntryPreview.rewordOption, EntryPreview.rewordAll_eq_map, Option.map_some]

theorem PropertyPreview.reword_eq (p : PropertyPreview) : p.reword g = { p with
    valuePreview := p.valuePreview.map (ObjectPreview.reword g) } := by
  obtain ⟨name, kind, value, _ | preview, subtype⟩ := p <;> rfl

theorem EntryPreview.reword_eq (e : EntryPreview) :
    e.reword g = ⟨e.key.map (ObjectPreview.reword g), e.value.reword g⟩ := by
  obtain ⟨_ | key, value⟩ := e <;> rfl

end Reword

/-! ## Previews by induction -/

/-- **What a preview has when the previews in it have it, every preview has**; `Q` and `R` say it of
a property and of an entry. -/
theorem ObjectPreview.induction {P : ObjectPreview → Prop} {Q : PropertyPreview → Prop}
    {R : EntryPreview → Prop}
    (object : ∀ p, (∀ q ∈ p.properties, Q q) → (∀ es ∈ p.entries, ∀ e ∈ es, R e) → P p)
    (property : ∀ q, (∀ p ∈ q.valuePreview, P p) → Q q)
    (entry : ∀ e, (∀ p ∈ e.key, P p) → P e.value → R e) : ∀ p, P p :=
  @ObjectPreview.rec P Q R (fun qs => ∀ q ∈ qs, Q q) (fun o => ∀ es ∈ o, ∀ e ∈ es, R e)
    (fun o => ∀ p ∈ o, P p) (fun es => ∀ e ∈ es, R e)
    (fun _ _ _ _ _ _ hproperties hentries => object _ hproperties hentries)
    (fun _ _ _ _ _ hpreview => property _ hpreview)
    (fun _ _ hkey hvalue => entry _ hkey hvalue)
    (List.forall_mem_nil _) (fun _ _ hq hqs => List.forall_mem_cons.mpr ⟨hq, hqs⟩)
    nofun (fun _ hes _ h => Option.some.inj h ▸ hes)
    nofun (fun _ hp _ h => Option.some.inj h ▸ hp)
    (List.forall_mem_nil _) (fun _ _ he hes => List.forall_mem_cons.mpr ⟨he, hes⟩)

/-- Descriptions that are changed twice are changed by both at once. -/
theorem ObjectPreview.reword_reword (g g' : String → String) (p : ObjectPreview) :
    (p.reword g').reword g = p.reword (g ∘ g') := by
  induction p using ObjectPreview.induction
    (Q := fun q => (q.reword g').reword g = q.reword (g ∘ g'))
    (R := fun e => (e.reword g').reword g = e.reword (g ∘ g')) with
  | object p hproperties hentries =>
    have hps : p.properties.map (PropertyPreview.reword g ∘ PropertyPreview.reword g') =
        p.properties.map (PropertyPreview.reword (g ∘ g')) := List.map_congr_left hproperties
    have hes : p.entries.map (List.map (EntryPreview.reword g) ∘ List.map (EntryPreview.reword g')) =
        p.entries.map (List.map (EntryPreview.reword (g ∘ g'))) :=
      Option.map_congr fun es h => (List.map_map ..).trans (List.map_congr_left (hentries es h))
    rw [reword_eq, reword_eq, reword_eq]
    dsimp only
    rw [rewordText_rewordText, List.map_map, Option.map_map, hps, hes]
  | property q hpreview =>
    have hp : q.valuePreview.map (reword g ∘ reword g') = q.valuePreview.map (reword (g ∘ g')) :=
      Option.map_congr hpreview
    rw [PropertyPreview.reword_eq, PropertyPreview.reword_eq, PropertyPreview.reword_eq,
      Option.map_map, hp]
  | entry e hkey hvalue =>
    have hk : e.key.map (reword g ∘ reword g') = e.key.map (reword (g ∘ g')) :=
      Option.map_congr hkey
    rw [EntryPreview.reword_eq, EntryPreview.reword_eq, EntryPreview.reword_eq, Option.map_map,
      hvalue, hk]

theorem RemoteObject.reword_reword (g g' : String → String) (v : RemoteObject) :
    (v.reword g').reword g = v.reword (g ∘ g') := by
  have hp : v.preview.map (ObjectPreview.reword g ∘ ObjectPreview.reword g') =
      v.preview.map (ObjectPreview.reword (g ∘ g')) :=
    Option.map_congr fun p _ => p.reword_reword g g'
  rw [reword, reword, reword, rewordText_rewordText, Option.map_map, hp]

/-- A change of descriptions that keeps their words is one in blanks only. -/
theorem RemoteObject.sameWords_reword {g : String → String}
    (hg : ∀ s, Text.words (g s) = Text.words s) (v : RemoteObject) : v.SameWords (v.reword g) := by
  have hcollapse : Text.collapse ∘ g = Text.collapse :=
    funext fun s => Text.collapse_eq_iff.mpr (hg s)
  rw [SameWords, reword_reword, hcollapse]

end ConsoleLens
