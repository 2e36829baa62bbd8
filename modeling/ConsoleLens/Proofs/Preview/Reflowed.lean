import ConsoleLens.Proofs.Preview.Entries

/-!
# Proofs/Preview/Reflowed — descriptions laid out anew

A title shows the texts of some entries, and nothing else in it follows the blanks of descriptions.
An entry is fixed when its key and its value are strings or have no description: its text is the
same for every layout.  The text of any other entry grows with a blank at the end of a description,
and so does a title that shows it (`Frames.length_mono`).  So **a title is the same for all layouts of
the descriptions exactly when it shows fixed entries only** (`Formatter.title_sameWords_iff`).
-/

namespace ConsoleLens

open Preview

/-! ## Entries whose texts are fixed -/

/-- **A key or a value has no layout of its own**: it is a string, or it has no description. -/
def ObjectPreview.IsFixed (p : ObjectPreview) : Prop := p.kind = .string ∨ p.description = none

/-- **An entry is fixed** when its value is, and its key if it has one. -/
structure EntryPreview.IsFixed (e : EntryPreview) : Prop where
  key : ∀ p ∈ e.key, p.IsFixed
  value : e.value.IsFixed

theorem EntryPreview.isFixed_iff {e : EntryPreview} :
    e.IsFixed ↔ (∀ p ∈ e.key, p.IsFixed) ∧ e.value.IsFixed :=
  ⟨fun h => ⟨h.key, h.value⟩, fun h => ⟨h.1, h.2⟩⟩

theorem rewordText_eq_none {g : String → String} {kind : RemoteKind} {description : Option String} :
    rewordText g kind description = none ↔ description = none := by
  unfold rewordText
  split
  · rfl
  · exact Option.map_eq_none_iff

theorem ObjectPreview.isFixed_reword {g : String → String} {p : ObjectPreview} :
    (p.reword g).IsFixed ↔ p.IsFixed := by
  rw [reword_eq, IsFixed, IsFixed, rewordText_eq_none]

theorem EntryPreview.isFixed_reword {g : String → String} {e : EntryPreview} :
    (e.reword g).IsFixed ↔ e.IsFixed := by
  have hkey : (∀ p ∈ e.key.map (ObjectPreview.reword g), p.IsFixed) ↔ ∀ p ∈ e.key, p.IsFixed := by
    cases e.key with
    | none => exact Iff.rfl
    | some key => simp [ObjectPreview.isFixed_reword]
  rw [isFixed_iff, isFixed_iff, reword_eq, hkey, ObjectPreview.isFixed_reword]

theorem ObjectPreview.IsFixed.describedText_reword {p : ObjectPreview} (h : p.IsFixed)
    (g : String → String) : describedText (p.reword g) = describedText p := by
  rw [describedText, describedText, ObjectPreview.reword_eq]
  dsimp only
  rcases h with hkind | hdescription
  · rw [rewordText, if_pos hkind]
  · rw [hdescription, rewordText_eq_none.mpr rfl]

/-- A fixed entry has the same text however its descriptions are changed. -/
theorem EntryPreview.IsFixed.entryText_reword {e : EntryPreview} (h : e.IsFixed)
    (g : String → String) : entryText (e.reword g) = entryText e := by
  obtain ⟨_ | key, value⟩ := e
  · exact h.value.describedText_reword g
  · rw [EntryPreview.reword_eq, entryText, entryText]
    dsimp only [Option.map_some]
    rw [(h.key key rfl).describedText_reword g, h.value.describedText_reword g]

/-- **A text that shows fixed entries only stays.** -/
theorem Frames.eq_of_isFixed {g : String → String} {es : List EntryPreview} {s t : String}
    (h : Frames g es s t) (hes : ∀ e ∈ es, e.IsFixed) : t = s := by
  induction h with
  | text s => rfl
  | entry e => exact (hes e (List.mem_singleton_self e)).entryText_reword g
  | append h h' ih ih' =>
    obtain ⟨hes, hes'⟩ := List.forall_mem_append.mp hes
    rw [ih hes, ih' hes']

section Longer

variable {g : String → String} (hg : ∀ s : String, s.length < (g s).length)
include hg

/-- A key or a value that is not fixed grows with its description. -/
theorem ObjectPreview.length_describedText_lt {p : ObjectPreview} (h : ¬ p.IsFixed) :
    (describedText p).length < (describedText (p.reword g)).length := by
  obtain ⟨hkind, hdescription⟩ := not_or.mp h
  obtain ⟨s, hs⟩ := Option.ne_none_iff_exists'.mp hdescription
  rw [describedText, describedText, ObjectPreview.reword_eq]
  simpa [quoted, rewordText, hkind, hs] using hg s

theorem ObjectPreview.length_describedText_le (p : ObjectPreview) :
    (describedText p).length ≤ (describedText (p.reword g)).length := by
  by_cases h : p.IsFixed
  · exact Nat.le_of_eq (congrArg String.length (h.describedText_reword g)).symm
  · exact Nat.le_of_lt (length_describedText_lt hg h)

/-- So does an entry that is not fixed. -/
theorem EntryPreview.length_entryText_lt {e : EntryPreview} (h : ¬ e.IsFixed) :
    (entryText e).length < (entryText (e.reword g)).length := by
  rw [isFixed_iff, not_and_or] at h
  obtain ⟨_ | key, value⟩ := e
  · exact ObjectPreview.length_describedText_lt hg (h.resolve_left fun hkey => hkey nofun)
  · have hkeys := ObjectPreview.length_describedText_le hg key
    have hvalues := ObjectPreview.length_describedText_le hg value
    rw [EntryPreview.reword_eq, entryText, entryText]
    simp only [Option.map_some, String.length_append]
    rcases h with hkey | hvalue
    · have := ObjectPreview.length_describedText_lt hg (p := key) (by simpa using hkey)
      omega
    · have := ObjectPreview.length_describedText_lt hg (p := value) hvalue
      omega

/-- **A text that shows an entry that is not fixed grows with it.** -/
theorem Frames.length_mono {es : List EntryPreview} {s t : String} (h : Frames g es s t) :
    s.length ≤ t.length ∧ ((∃ e ∈ es, ¬ e.IsFixed) → s.length < t.length) := by
  -- of two texts that are joined only one may grow, so that the other does not shrink is carried
  induction h with
  | text s => exact ⟨Nat.le_refl _, fun ⟨_, he, _⟩ => absurd he List.not_mem_nil⟩
  | entry e =>
    by_cases h : e.IsFixed
    · rw [h.entryText_reword g]
      refine ⟨Nat.le_refl _, fun ⟨e', he', hnot⟩ => ?_⟩
      obtain rfl := List.mem_singleton.mp he'
      exact absurd h hnot
    · have hlt := EntryPreview.length_entryText_lt hg h
      exact ⟨Nat.le_of_lt hlt, fun _ => hlt⟩
  | append h h' ih ih' =>
    simp only [String.length_append, List.mem_append]
    refine ⟨Nat.add_le_add ih.1 ih'.1, ?_⟩
    rintro ⟨e, he | he, hnot⟩
    · exact Nat.add_lt_add_of_lt_of_le (ih.2 ⟨e, he, hnot⟩) ih'.1
    · exact Nat.add_lt_add_of_le_of_lt ih.1 (ih'.2 ⟨e, he, hnot⟩)

theorem Frames.isFixed_of_eq {es : List EntryPreview} {s : String} (h : Frames g es s s) :
    ∀ e ∈ es, e.IsFixed := by
  intro e he
  by_contra hnot
  exact Nat.lt_irrefl _ ((h.length_mono hg).2 ⟨e, he, hnot⟩)

end Longer

/-! ## Titles of values with the same words -/

/-- Values with the same words show fixed entries only, or none of them does. -/
theorem RemoteObject.SameWords.isFixed {v w : RemoteObject} (h : v.SameWords w)
    (hv : ∀ e ∈ v.shownEntries, e.IsFixed) :
    ∀ e ∈ w.shownEntries, e.IsFixed := by
  have hshown := congrArg RemoteObject.shownEntries h
  rw [RemoteObject.shownEntries_reword, RemoteObject.shownEntries_reword] at hshown
  intro e he
  have hmem : e.reword Text.collapse ∈ v.shownEntries.map (EntryPreview.reword Text.collapse) :=
    hshown ▸ List.mem_map_of_mem he
  obtain ⟨e', he', heq⟩ := List.mem_map.mp hmem
  rw [← EntryPreview.isFixed_reword (g := Text.collapse), ← heq, EntryPreview.isFixed_reword]
  exact hv e' he'

namespace Formatter

/-- If every entry that is shown is fixed, the title is the one with each description on one line. -/
theorem title_collapse {f : Formatter} {v : RemoteObject} (h : ∀ e ∈ v.shownEntries, e.IsFixed) :
    f.title (v.reword Text.collapse) = f.title v :=
  (frames_title Text.words_collapse f v).eq_of_isFixed h

/-- **A value has the same title however its descriptions are laid out exactly when each entry that
its title shows has a key and a value that are strings or have no description.**  What else is
described, be it the value, the result of a promise, a map or a preview at any depth, is put on one
line first. -/
theorem title_sameWords_iff (f : Formatter) (v : RemoteObject) :
    (∀ w, v.SameWords w → f.title w = f.title v) ↔ ∀ e ∈ v.shownEntries, e.IsFixed := by
  constructor
  · intro h
    have hwords := frames_title Text.words_append_space f v
    rw [h _ (RemoteObject.sameWords_reword Text.words_append_space v)] at hwords
    refine hwords.isFixed_of_eq fun s => ?_
    rw [String.length_append]
    exact Nat.lt_add_of_pos_right (by decide)
  · intro h w hw
    rw [← title_collapse h, ← title_collapse (hw.isFixed h), hw]

/-- A map of one function, under the name f. -/
def handlers (description : String) : RemoteObject where
  kind := .object
  subtype := some "map"
  className := some "Map"
  description := some "Map(1)"
  preview := some
    { kind := .object
      subtype := some "map"
      description := some "Map(1)"
      entries := some [
        { key := some { kind := .string, description := some "f" }
          value := { kind := .function, description := some description } }] }

/-- A function that is written on two lines is shown on two lines as an entry. -/
theorem not_title_sameWords :
    ¬ ∀ (f : Formatter) (v w : RemoteObject), v.SameWords w → f.title v = f.title w := by
  intro h
  have hcollapse : Text.collapse "x =>\n  x" = Text.collapse "x => x" := by decide +kernel
  have hwords : (handlers "x =>\n  x").SameWords (handlers "x => x") := by
    simp [RemoteObject.SameWords, RemoteObject.reword, handlers, ObjectPreview.reword_eq,
      EntryPreview.reword_eq, rewordText, hcollapse]
  exact absurd (h {} _ _ hwords) (by decide +kernel)

end Formatter

end ConsoleLens
