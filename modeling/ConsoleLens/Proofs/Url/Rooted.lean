import ConsoleLens.Url.Basic
import Mathlib.Data.List.DropRight

/-!
# Proofs/Url/Rooted — the path of an address is no address

    text ──parse?──▸ address ──▸ path ──parse?──▸ nothing

Whatever the family of an address, its host and the dots, escapes and drive letters in it, **a path
is empty or starts with a slash** (`rooted_of_parse?`).  An address starts with a letter once the
blanks around it are gone, and neither blanks nor anything else that does not count is taken off a
slash; so **a rooted text spells no address** (`parse?_of_rooted`), and what the reduction of a text
leaves is left alone by a second one.
-/

namespace ConsoleLens

namespace Url

/-- **A path is empty or starts with a slash.** -/
def IsRooted (path : List Char) : Prop := path = [] ∨ path.head? = some '/'

/-! ## Paths of addresses -/

/-- Dots never take away the last segment. -/
theorem resolveDots_ne_nil (file : Bool) (done segments : List (List Char)) (h : segments ≠ []) :
    resolveDots file done segments ≠ [] := by
  fun_induction resolveDots file done segments with
  | case1 => exact absurd rfl h
  | case2 | case3 | case4 => simp [push]
  | case5 _ _ _ hrest _ ih | case6 _ _ _ hrest _ _ ih | case7 _ _ _ hrest _ _ ih =>
    exact ih fun hnil => hrest hnil

theorem head?_resolvePath (file : Bool) (cs : List Char) :
    (resolvePath file cs).head? = some '/' := by
  have hparts : (Text.split '/' cs).map encodePath ≠ [] :=
    mt List.map_eq_nil_iff.mp (Text.split_ne_nil '/' cs)
  obtain ⟨segment, rest, hsegments⟩ :=
    List.exists_cons_of_ne_nil (resolveDots_ne_nil file [] _ hparts)
  rw [resolvePath, hsegments]
  rfl

theorem rooted_resolvePath (file : Bool) (cs : List Char) : IsRooted (resolvePath file cs) :=
  .inr (head?_resolvePath file cs)

theorem rooted_filePath (cs : List Char) : IsRooted (filePath cs) := .inr rfl

variable {cs path : List Char}

theorem rooted_special? (h : special? cs = some (some path)) : IsRooted path := by
  obtain ⟨rest, -, heq⟩ := Option.map_eq_some_iff.mp h
  exact Option.some.inj heq ▸ rooted_resolvePath false _

theorem rooted_file? (h : file? cs = some (some path)) : IsRooted path := by
  unfold file? at h
  split at h
  · dsimp only at h
    split at h
    · exact Option.some.inj (Option.some.inj h) ▸ rooted_filePath _
    · split at h
      · exact Option.some.inj (Option.some.inj h) ▸ rooted_filePath _
      · split at h
        · exact Option.some.inj (Option.some.inj h) ▸ rooted_filePath _
        · cases h
  · exact Option.some.inj (Option.some.inj h) ▸ rooted_filePath _
  · exact Option.some.inj (Option.some.inj h) ▸ rooted_filePath _

theorem rooted_other? (h : other? cs = some (some path)) : IsRooted path := by
  unfold other? at h
  split at h
  · obtain ⟨rest, -, heq⟩ := Option.map_eq_some_iff.mp h
    rw [← Option.some.inj heq]
    split
    · exact .inl rfl
    · exact rooted_resolvePath false _
  · obtain rfl := Option.some.inj (Option.some.inj h)
    exact rooted_resolvePath false _
  · cases Option.some.inj h

/-- **Every path of an address is rooted.** -/
theorem rooted_of_parse? {text : String} {u : Url} (h : parse? text = some u)
    (hpath : u.path = some path) : IsRooted path := by
  rw [parse?] at h
  obtain ⟨⟨scheme, rest⟩, -, h⟩ := Option.bind_eq_some_iff.mp h
  have hfamily {read : List Char → Option (Option (List Char))}
      (h : (read rest).bind (fun path? => some ⟨scheme, path?⟩) = some u) :
      read rest = some (some path) := by
    obtain ⟨path?, hread, heq⟩ := Option.bind_eq_some_iff.mp h
    obtain rfl := Option.some.inj heq
    exact hread.trans (congrArg some hpath)
  dsimp only at h
  split at h
  · exact rooted_file? (hfamily h)
  · exact rooted_special? (hfamily h)
  · exact rooted_other? (hfamily h)

/-! ## Rooted texts -/

/-- A scheme starts with a letter. -/
theorem scheme?_of_not_isAlpha {c : Char} (hc : c.isAlpha = false) (cs : List Char) :
    scheme? (c :: cs) = none := by
  unfold scheme?
  split
  · next heq _ =>
    obtain ⟨rfl, -⟩ := List.cons.inj heq
    rw [if_neg (by rw [hc]; exact Bool.false_ne_true)]
  · rfl

/-- Nothing is taken off a slash in front. -/
theorem strip_slash (cs : List Char) : ∃ rest, strip ('/' :: cs) = '/' :: rest := by
  have hinner : ∃ inner, (('/' :: cs).rdropWhile (· ≤ ' ')) = '/' :: inner := by
    have hne : ('/' :: cs).rdropWhile (· ≤ ' ') ≠ [] := fun hnil =>
      absurd (List.rdropWhile_eq_nil_iff.mp hnil '/' List.mem_cons_self) (by decide)
    obtain ⟨c, inner, heq⟩ := List.exists_cons_of_ne_nil hne
    have hprefix := List.rdropWhile_prefix (p := fun c : Char => decide (c ≤ ' ')) ('/' :: cs)
    rw [heq, List.cons_prefix_cons] at hprefix
    exact ⟨inner, hprefix.1 ▸ heq⟩
  obtain ⟨inner, hinner⟩ := hinner
  have hkept : (('/' :: cs).dropWhile (· ≤ ' ')) = '/' :: cs :=
    List.dropWhile_cons_of_neg (by decide)
  rw [strip, hkept]
  change ∃ rest, (('/' :: cs).rdropWhile (· ≤ ' ')).filter _ = '/' :: rest
  rw [hinner, List.filter_cons_of_pos (by decide)]
  exact ⟨_, rfl⟩

/-- **A rooted text spells no address.** -/
theorem parse?_of_rooted {text : String} (h : IsRooted text.toList) : parse? text = none := by
  have hscheme : scheme? (strip text.toList) = none := by
    rcases h with hnil | hslash
    · rw [hnil]
      rfl
    · obtain ⟨cs, hcs⟩ : ∃ cs, text.toList = '/' :: cs := List.head?_eq_some_iff.mp hslash
      obtain ⟨rest, hrest⟩ := strip_slash cs
      rw [hcs, hrest, scheme?_of_not_isAlpha (by decide)]
  rw [parse?, hscheme]
  rfl

end Url

open Url

theorem addressPath_of_rooted {text : String} (h : IsRooted text.toList) :
    addressPath text = text := by
  rw [addressPath, parse?_of_rooted h]

/-- A text is reduced to the path of the address that it spells, if it has one. -/
theorem addressPath_cases (text : String) :
    (addressPath text = text ∧ ∀ u, parse? text = some u → u.path = none) ∨
      IsRooted (addressPath text).toList ∧ ∃ u, parse? text = some u ∧ u.path ≠ none := by
  unfold addressPath
  split
  · next scheme path h =>
    rw [String.toList_ofList]
    exact .inr ⟨rooted_of_parse? h rfl, _, h, Option.some_ne_none path⟩
  · next hnone =>
    refine .inl ⟨rfl, fun ⟨scheme, path⟩ h => ?_⟩
    cases path with
    | none => rfl
    | some path => exact absurd h (hnone scheme path)

/-- **Reducing a text to a path comes to an end at once.**  A second reduction changes nothing, and
what the first leaves is the text itself or a text that is empty or starts with a slash.  It leaves
the text itself exactly where that spells no address with a path. -/
theorem addressPath_addressPath (text : String) :
    addressPath (addressPath text) = addressPath text ∧
    (addressPath text = text ∨ addressPath text = "" ∨
      ∃ rest, (addressPath text).toList = '/' :: rest) ∧
    (addressPath text = text ↔ ∀ u, parse? text = some u → u.path = none) := by
  rcases addressPath_cases text with ⟨hsame, hnone⟩ | ⟨hrooted, u, hu, hpath⟩
  · exact ⟨by rw [hsame, hsame], .inl hsame, iff_of_true hsame hnone⟩
  · refine ⟨addressPath_of_rooted hrooted, .inr ?_, iff_of_false (fun hsame => ?_) fun h => ?_⟩
    · rcases hrooted with hnil | hslash
      · exact .inl (String.toList_eq_nil_iff.mp hnil)
      · exact .inr (List.head?_eq_some_iff.mp hslash)
    · rw [hsame] at hrooted
      rw [parse?_of_rooted hrooted] at hu
      cases hu
    · exact hpath (h u hu)

-- A drive letter is kept in front of dots, and the slash before it keeps it from being a scheme.
example : addressPath "file:C|\\a/%2e%2E/.." = "/C:/" := by decide +kernel

end ConsoleLens
