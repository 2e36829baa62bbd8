import ConsoleLens.Text.Blank
import Mathlib.Data.List.Basic

/-!
# Proofs/Text/Words — what a text keeps when its blanks are laid out anew

A blank ends a word and is in none (`wordsFrom_append_blank`).  So the words of a text that has one
space between words are those words again (`words_collapse`), and **two texts collapse to the same
text exactly when they have the same words** (`collapse_eq_iff`).
-/

namespace ConsoleLens.Text

/-- **A word as texts have them**: not empty, and without a blank. -/
def IsWord (word : List Char) : Prop := word ≠ [] ∧ ∀ c ∈ word, isBlank c = false

theorem isBlank_space : isBlank ' ' = true := rfl

theorem wordsFrom_nil (word : List Char) :
    wordsFrom word [] = if word.isEmpty then [] else [word.reverse] := rfl

/-- A blank closes the open word. -/
theorem wordsFrom_blank {c : Char} (h : isBlank c = true) (word rest : List Char) :
    wordsFrom word (c :: rest) = wordsFrom word [] ++ wordsFrom [] rest := by
  rw [wordsFrom_nil, wordsFrom, if_pos h]
  split <;> rfl

/-- Any other character goes on with it. -/
theorem wordsFrom_cons {c : Char} (h : isBlank c = false) (word rest : List Char) :
    wordsFrom word (c :: rest) = wordsFrom (c :: word) rest := by
  rw [wordsFrom, if_neg (by rw [h]; exact Bool.false_ne_true)]

/-- **A blank parts the words before it from the words after it.** -/
theorem wordsFrom_append_blank {c : Char} (h : isBlank c = true) (cs rest : List Char) :
    ∀ word, wordsFrom word (cs ++ c :: rest) = wordsFrom word cs ++ wordsFrom [] rest := by
  induction cs with
  | nil => exact fun word => wordsFrom_blank h word rest
  | cons d ds ih =>
    intro word
    rw [List.cons_append]
    cases hd : isBlank d with
    | true => rw [wordsFrom_blank hd, wordsFrom_blank hd, ih, List.append_assoc]
    | false => rw [wordsFrom_cons hd, wordsFrom_cons hd, ih]

theorem wordsFrom_of_forall {cs : List Char} (h : ∀ c ∈ cs, isBlank c = false) :
    ∀ word, wordsFrom word cs = wordsFrom (cs.reverse ++ word) [] := by
  induction cs with
  | nil => exact fun word => rfl
  | cons c cs ih =>
    obtain ⟨hc, hcs⟩ := List.forall_mem_cons.mp h
    intro word
    rw [wordsFrom_cons hc, ih hcs, List.reverse_cons, List.append_assoc, List.singleton_append]

theorem wordsFrom_word {word : List Char} (h : IsWord word) : wordsFrom [] word = [word] := by
  rw [wordsFrom_of_forall h.2, List.append_nil, wordsFrom_nil, List.reverse_reverse, if_neg]
  simpa using h.1

theorem isWord_of_mem_wordsFrom_nil {word w : List Char} (hword : ∀ c ∈ word, isBlank c = false)
    (hw : w ∈ wordsFrom word []) : IsWord w := by
  rw [wordsFrom_nil] at hw
  split at hw
  · cases hw
  · next hne =>
    obtain rfl := List.mem_singleton.mp hw
    exact ⟨by simpa using hne, fun c hc => hword c (List.mem_reverse.mp hc)⟩

/-- **What is read are words.** -/
theorem isWord_of_mem_wordsFrom {cs w : List Char} : ∀ {word : List Char},
    (∀ c ∈ word, isBlank c = false) → w ∈ wordsFrom word cs → IsWord w := by
  induction cs with
  | nil => exact isWord_of_mem_wordsFrom_nil
  | cons c cs ih =>
    intro word hword hw
    cases hc : isBlank c with
    | true =>
      rw [wordsFrom_blank hc] at hw
      rcases List.mem_append.mp hw with hw | hw
      · exact isWord_of_mem_wordsFrom_nil hword hw
      · exact ih (List.forall_mem_nil _) hw
    | false =>
      rw [wordsFrom_cons hc] at hw
      exact ih (List.forall_mem_cons.mpr ⟨hc, hword⟩) hw

/-- **One space between words parts them.** -/
theorem wordsFrom_intercalate {ws : List (List Char)} (h : ∀ w ∈ ws, IsWord w) :
    wordsFrom [] ([' '].intercalate ws) = ws := by
  induction ws with
  | nil => rfl
  | cons w rest ih =>
    obtain ⟨hw, hrest⟩ := List.forall_mem_cons.mp h
    cases rest with
    | nil => simpa using wordsFrom_word hw
    | cons w' rest =>
      rw [List.intercalate_cons_cons, List.append_assoc, List.singleton_append,
        wordsFrom_append_blank isBlank_space, wordsFrom_word hw, ih hrest, List.singleton_append]

theorem words_collapse (text : String) : words (collapse text) = words text := by
  have hwords : ∀ w ∈ wordsFrom [] text.toList, IsWord w := fun w =>
    isWord_of_mem_wordsFrom (List.forall_mem_nil _)
  have htoList : (collapse text).toList = [' '].intercalate (wordsFrom [] text.toList) := by
    simp [collapse, words, String.toList_intercalate]
  rw [words, htoList, wordsFrom_intercalate hwords, words]

theorem collapse_eq_iff {s t : String} : collapse s = collapse t ↔ words s = words t := by
  constructor
  · intro h
    rw [← words_collapse s, h, words_collapse]
  · intro h
    rw [collapse, h, collapse]

/-- A blank at the end makes no word. -/
theorem words_append_space (text : String) : words (text ++ " ") = words text := by
  rw [words, String.toList_append, words]
  exact congrArg _ ((wordsFrom_append_blank isBlank_space _ [] []).trans (List.append_nil _))

end ConsoleLens.Text
