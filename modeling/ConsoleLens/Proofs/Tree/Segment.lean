import ConsoleLens.Proofs.Tree.Arrival

/-!
# Proofs/Tree/Segment — groups are put together from the segments of sources

The index of paths is made of the sources of the entries that show, and so are the texts of the
groups in it: **what holds of every segment and goes on holding when segments are joined by slashes
holds of every group** (`Indexed.groups`).
-/

namespace ConsoleLens

namespace PathIndex

/-- Every level below a level has a name with a property. -/
inductive Named (P : String → Prop) : PathIndex → Prop where
  | level {es : List Nat} {cs : List (String × PathIndex)} (hname : ∀ c ∈ cs, P c.1)
      (hbelow : ∀ c ∈ cs, Named P c.2) : Named P (.level es cs)

variable {P : String → Prop}

theorem named_empty : Named P empty := .level (by simp) (by simp)

theorem Named.mono {Q : String → Prop} (hPQ : ∀ s, P s → Q s) {l : PathIndex} (h : Named P l) :
    Named Q l := by
  induction h with
  | level hname _ ih => exact .level (fun c hc => hPQ _ (hname c hc)) ih

/-- Changing a level keeps the others, and makes it from the one of its name or from nothing. -/
theorem mem_modifyChild {name : String} {f : PathIndex → PathIndex}
    {cs : List (String × PathIndex)} {c : String × PathIndex} (h : c ∈ modifyChild name f cs) :
    c ∈ cs ∨ c = (name, f empty) ∨ ∃ l, (name, l) ∈ cs ∧ c = (name, f l) := by
  induction cs with
  | nil => exact .inr (.inl (List.mem_singleton.mp h))
  | cons first rest ih =>
    obtain ⟨n, l⟩ := first
    unfold modifyChild at h
    split at h
    · rcases List.mem_cons.mp h with rfl | h
      · exact .inr (.inl rfl)
      · exact .inl h
    · split at h
      · next heq =>
        rcases List.mem_cons.mp h with rfl | h
        · exact .inr (.inr ⟨l, heq ▸ List.mem_cons_self, heq ▸ rfl⟩)
        · exact .inl (List.mem_cons_of_mem _ h)
      · rcases List.mem_cons.mp h with rfl | h
        · exact .inl List.mem_cons_self
        · rcases ih h with h | h | ⟨l', hl', h⟩
          · exact .inl (List.mem_cons_of_mem _ h)
          · exact .inr (.inl h)
          · exact .inr (.inr ⟨l', List.mem_cons_of_mem _ hl', h⟩)

/-- Filing under a path names levels after its segments. -/
theorem Named.insert (index : Nat) : ∀ {segments : List String} {l : PathIndex}, Named P l →
    (∀ s ∈ segments, P s) → Named P (insert index segments l)
  | [], _, .level hname hbelow, _ => .level hname hbelow
  | s :: rest, _, .level hname hbelow, hs => by
      have hrest {l : PathIndex} (hl : Named P l) : Named P (PathIndex.insert index rest l) :=
        Named.insert index hl fun s' hs' => hs s' (List.mem_cons_of_mem s hs')
      refine .level (fun c hc => ?_) (fun c hc => ?_)
      · rcases mem_modifyChild hc with hc | rfl | ⟨l, -, rfl⟩
        · exact hname c hc
        · exact hs s List.mem_cons_self
        · exact hs s List.mem_cons_self
      · rcases mem_modifyChild hc with hc | rfl | ⟨l, hl, rfl⟩
        · exact hbelow c hc
        · exact hrest named_empty
        · exact hrest (hbelow _ hl)

/-- A level that a name leads to is one of the levels. -/
theorem mem_of_lookup {name : String} {l : PathIndex} {cs : List (String × PathIndex)}
    (h : cs.lookup name = some l) : (name, l) ∈ cs := by
  obtain ⟨before, after, rfl, -⟩ := List.lookup_eq_some_iff.mp h
  exact List.mem_append_right before List.mem_cons_self

/-- What a level hands down to its children holds of every level that is found below it. -/
theorem of_find? {Q : PathIndex → Prop} (hchild : ∀ l, Q l → ∀ c ∈ l.children, Q c.2) :
    ∀ {segments : List String} {l l' : PathIndex}, Q l → l.find? segments = some l' → Q l'
  | [], _, _, h, heq => Option.some.inj heq ▸ h
  | s :: rest, .level es cs, _, h, heq => by
      obtain ⟨l, hl, hrest⟩ := Option.bind_eq_some_iff.mp heq
      exact of_find? hchild (hchild _ h (s, l) (mem_of_lookup hl)) hrest

theorem Named.find? {segments : List String} {l l' : PathIndex} (h : Named P l)
    (heq : l.find? segments = some l') : Named P l' :=
  of_find? (fun _ ⟨_, hbelow⟩ => hbelow) h heq

/-- What the path of a group starts with, before its label. -/
def stem : Option String → String
  | none => ""
  | some path => path ++ "/"

theorem childPath_eq (path : Option String) (name : String) :
    childPath path name = stem path ++ name := by
  cases path with
  | none => exact String.empty_append.symm
  | some path => rfl

/-- Path and label of a group are merged with the same names. -/
theorem path_compact {start path label : String} (h : path = start ++ label) (l : PathIndex) :
    (compact path label l).path = start ++ (compact path label l).label := by
  fun_induction compact path label l with
  | case1 path label name es c cs ih =>
    refine ih ?_
    rw [h, String.append_assoc, String.append_assoc, String.append_assoc]
  | case2 => exact h

/-- A merged group's text goes on with the names of the levels merged into it. -/
theorem Named.compact {Q : String → Prop} (hjoin : ∀ p s, Q p → P s → Q (p ++ "/" ++ s))
    {path : String} (label : String) {l : PathIndex} (h : Named P l) (hpath : Q path) :
    Q (compact path label l).path := by
  fun_induction PathIndex.compact path label l with
  | case1 path label name es c cs ih =>
    obtain ⟨hname, hbelow⟩ := h
    exact ih (hbelow _ List.mem_cons_self) (hjoin path name hpath (hname _ List.mem_cons_self))
  | case2 => exact hpath

/-- **A group's text is put together from the path of its level and names below it.** -/
theorem Named.groups {Q : String → Prop} (hsegment : ∀ s, P s → Q s)
    (hjoin : ∀ p s, Q p → P s → Q (p ++ "/" ++ s)) {l : PathIndex} (h : Named P l)
    {parent : Option String} (hparent : ∀ p ∈ parent, Q p) {g : PathBranch}
    (hg : g ∈ l.groups parent) : Q g.path := by
  obtain ⟨hname, hbelow⟩ := h
  obtain ⟨c, hc, rfl⟩ := List.mem_map.mp hg
  refine Named.compact hjoin c.1 (hbelow c hc) ?_
  cases parent with
  | none => exact hsegment _ (hname c hc)
  | some p => exact hjoin p _ (hparent p rfl) (hname c hc)

end PathIndex

/-! ## The index of a tree -/

namespace LogTree

/-- A segment of an entry that shows. -/
def IsSegment (t : LogTree) (s : String) : Prop :=
  ∃ e ∈ t.entries, s ∈ e.originalPosition.segments

/-- **The index of paths holds segments of the entries that show, and nothing else.** -/
def Indexed (t : LogTree) : Prop := t.paths.Named t.IsSegment

theorem Indexed.file {t : LogTree} (h : Indexed t) (e : LogEntry) : Indexed (t.file e) := by
  have hentries : (t.file e).entries = t.entries ++ [e] := by simp [LogTree.entries, LogTree.file]
  refine (h.mono ?_).insert t.stored.length fun s hs => ?_
  · rintro s ⟨e', he', hs⟩
    exact ⟨e', hentries ▸ List.mem_append_left [e] he', hs⟩
  · exact ⟨e, hentries ▸ List.mem_append_right t.entries List.mem_cons_self, hs⟩

/-- The levels below a path are named after segments, too. -/
theorem Indexed.named_levelAt {t : LogTree} (h : t.Indexed) {path : Option String} {l : PathIndex}
    (hl : t.levelAt? path = some l) : l.Named t.IsSegment := by
  cases path with
  | none => exact Option.some.inj hl ▸ h
  | some path => exact PathIndex.Named.find? h hl

end LogTree

theorem Browsing.indexed_run (actions : List TreeAction) :
    (({} : Browsing).run actions).tree.Indexed :=
  filing_induction (P := LogTree.Indexed) (fun _ _ => PathIndex.named_empty)
    (fun _ e h => h.file e) (fun _ _ _ _ _ _ h => h) actions

end ConsoleLens
