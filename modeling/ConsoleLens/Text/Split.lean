/-!
# Text/Split — cutting a text at a separator

`n` separators cut a text into `n + 1` parts, so no part is ever missing and some may be empty.
-/

namespace ConsoleLens.Text

/-- The parts of a text between the characters `sep`. -/
def split (sep : Char) (cs : List Char) : List (List Char) :=
  cs.foldr
    (fun c parts => if c = sep then [] :: parts else
      match parts with
      | [] => [[c]]
      | part :: rest => (c :: part) :: rest)
    [[]]

/-- The parts that are not empty. -/
def splitNonempty (sep : Char) (cs : List Char) : List (List Char) :=
  (split sep cs).filter (!·.isEmpty)

/-- The non-empty parts of a path between its slashes. -/
def segments (path : String) : List String :=
  (splitNonempty '/' path.toList).map String.ofList

/-- `text` without the slashes it starts with. -/
def trimSlashes (text : List Char) : List Char := text.dropWhile (· = '/')

theorem split_ne_nil (sep : Char) (cs : List Char) : split sep cs ≠ [] := by
  induction cs with
  | nil => simp [split]
  | cons c cs ih =>
    simp only [split, List.foldr_cons] at ih ⊢
    split
    · simp
    · split <;> simp

@[simp] theorem split_nil (sep : Char) : split sep [] = [[]] := rfl

@[simp] theorem split_cons_self (sep : Char) (cs : List Char) :
    split sep (sep :: cs) = [] :: split sep cs := by
  simp [split]

/-- A character that does not separate goes on with the part that follows. -/
theorem split_cons_of_ne {sep c : Char} {cs first : List Char} {rest : List (List Char)}
    (hc : c ≠ sep) (hs : split sep cs = first :: rest) :
    split sep (c :: cs) = (c :: first) :: rest := by
  rw [split] at hs
  rw [split, List.foldr_cons, if_neg hc, hs]

/-- **A text that is put together at a separator has the parts of both sides.** -/
theorem split_append_cons (sep : Char) (xs ys : List Char) :
    split sep (xs ++ sep :: ys) = split sep xs ++ split sep ys := by
  induction xs with
  | nil => simp
  | cons c xs ih =>
    by_cases hc : c = sep
    · rw [hc, List.cons_append, split_cons_self, split_cons_self, ih, List.cons_append]
    · cases hs : split sep xs with
      | nil => exact absurd hs (split_ne_nil sep xs)
      | cons first rest =>
        rw [hs, List.cons_append] at ih
        rw [List.cons_append, split_cons_of_ne hc ih, split_cons_of_ne hc hs, List.cons_append]

/-- A text without the separator is one part. -/
theorem split_of_notMem {sep : Char} {cs : List Char} (h : sep ∉ cs) : split sep cs = [cs] := by
  induction cs with
  | nil => rfl
  | cons c cs ih =>
    rw [List.mem_cons, not_or] at h
    exact split_cons_of_ne (Ne.symm h.1) (ih h.2)

/-- What is put together holds nothing but the parts and the separator. -/
theorem notMem_intercalate {sep c : Char} (hc : c ≠ sep) : ∀ {parts : List (List Char)},
    (∀ part ∈ parts, c ∉ part) → c ∉ [sep].intercalate parts
  | [], _ => by
      rw [List.intercalate_nil]
      exact List.not_mem_nil
  | [part], h => by
      rw [List.intercalate_singleton]
      exact h part List.mem_cons_self
  | part :: next :: rest, h => by
      have hrest : c ∉ [sep].intercalate (next :: rest) :=
        notMem_intercalate hc fun q hq => h q (List.mem_cons_of_mem part hq)
      rw [List.intercalate_cons_cons, List.mem_append, List.mem_append, List.mem_singleton]
      rintro ((hpart | rfl) | hmem)
      · exact h part List.mem_cons_self hpart
      · exact hc rfl
      · exact hrest hmem

/-- **A text that is put together from parts without the separator is cut into them.** -/
theorem split_intercalate {sep : Char} : ∀ {parts : List (List Char)}, parts ≠ [] →
    (∀ part ∈ parts, sep ∉ part) → split sep ([sep].intercalate parts) = parts
  | [], hne, _ => absurd rfl hne
  | [part], _, h => by
      rw [List.intercalate_singleton]
      exact split_of_notMem (h part List.mem_cons_self)
  | part :: next :: rest, _, h => by
      have hrest : ∀ part ∈ next :: rest, sep ∉ part := fun q hq =>
        h q (List.mem_cons_of_mem part hq)
      rw [List.intercalate_cons_cons, List.append_assoc, List.singleton_append, split_append_cons,
        split_of_notMem (h part List.mem_cons_self),
        split_intercalate (List.cons_ne_nil next rest) hrest, List.singleton_append]

/-- Parts that are not empty are found again, however many they are. -/
theorem splitNonempty_intercalate {sep : Char} {parts : List (List Char)}
    (h : ∀ part ∈ parts, part ≠ [] ∧ sep ∉ part) :
    splitNonempty sep ([sep].intercalate parts) = parts := by
  by_cases hne : parts = []
  · rw [hne]
    rfl
  · rw [splitNonempty, split_intercalate hne fun part hpart => (h part hpart).2]
    refine List.filter_eq_self.mpr fun part hpart => ?_
    simpa using (h part hpart).1

/-- A part holds characters of the text, and none of them is the separator. -/
theorem mem_of_mem_split {sep : Char} {cs part : List Char} {c : Char} (hpart : part ∈ split sep cs)
    (hc : c ∈ part) : c ∈ cs ∧ c ≠ sep := by
  induction cs generalizing part with
  | nil =>
    obtain rfl := List.mem_singleton.mp hpart
    cases hc
  | cons d cs ih =>
    have hrest {part : List Char} (hpart : part ∈ split sep cs) (hc : c ∈ part) :
        c ∈ d :: cs ∧ c ≠ sep :=
      ⟨List.mem_cons_of_mem d (ih hpart hc).1, (ih hpart hc).2⟩
    rw [split, List.foldr_cons, ← split] at hpart
    split at hpart
    · rcases List.mem_cons.mp hpart with rfl | hpart
      · cases hc
      · exact hrest hpart hc
    · next hd =>
      cases hs : split sep cs with
      | nil => exact absurd hs (split_ne_nil sep cs)
      | cons first rest =>
        rw [hs] at hpart hrest
        rcases List.mem_cons.mp hpart with rfl | hpart
        · rcases List.mem_cons.mp hc with rfl | hc
          · exact ⟨List.mem_cons_self, hd⟩
          · exact hrest List.mem_cons_self hc
        · exact hrest (List.mem_cons_of_mem first hpart) hc

/-- A segment of a path is not empty, and it holds characters of the path other than slashes. -/
theorem segments_spec {path s : String} (h : s ∈ segments path) :
    s.toList ≠ [] ∧ ∀ c ∈ s.toList, c ∈ path.toList ∧ c ≠ '/' := by
  obtain ⟨part, hpart, rfl⟩ := List.mem_map.mp h
  obtain ⟨hsplit, hne⟩ := List.mem_filter.mp hpart
  rw [String.toList_ofList]
  exact ⟨by simpa using hne, fun c hc => mem_of_mem_split hsplit hc⟩

/-- A path that is put together at a slash has the segments of both sides. -/
theorem segments_append (path more : String) :
    segments (path ++ "/" ++ more) = segments path ++ segments more := by
  simp [segments, splitNonempty, split_append_cons]

/-- **A segment is its own path.** -/
theorem segments_of_notMem {s : String} (hne : s.toList ≠ []) (h : '/' ∉ s.toList) :
    segments s = [s] := by
  simp [segments, splitNonempty, split_of_notMem h, hne]

theorem segments_of_mem_segments {path s : String} (h : s ∈ segments path) : segments s = [s] :=
  segments_of_notMem (segments_spec h).1 fun hslash => ((segments_spec h).2 '/' hslash).2 rfl

end ConsoleLens.Text
