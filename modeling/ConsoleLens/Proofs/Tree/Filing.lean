import ConsoleLens.Proofs.Tree.Arrival
import ConsoleLens.Proofs.Tree.Naming
import Mathlib.Data.List.Nodup

/-!
# Proofs/Tree/Filing — an entry's identity says how many came before it

The counters are put up one by one, dropped by a clear and built again by a load, and yet

    stored = numbered entries          (`Filed`)

at all times: **the identities are a function of the entries in their order of arrival.**  Entry `i`
is named after its place and the number of entries before it from the same place, so no two have one
name, an addition names only what it adds, and a load that keeps the entries keeps the names.
-/

namespace ConsoleLens

namespace LogTree

/-- The number of entries from the place of `e`. -/
def countAt (entries : List LogEntry) (e : LogEntry) : Nat :=
  entries.countP fun e' => e'.originalPosition = e.originalPosition

/-- **The identities of entries**, each numbered among those from its place. -/
def numbered (entries : List LogEntry) : List FiledEntry :=
  entries.mapIdx fun i e => ⟨entryId e.key (countAt (entries.take i) e), e⟩

@[simp] theorem length_numbered (entries : List LogEntry) :
    (numbered entries).length = entries.length := List.length_mapIdx

theorem getElem_numbered (entries : List LogEntry) (i : Nat) (h : i < entries.length)
    (h' : i < (numbered entries).length) :
    (numbered entries)[i]
      = ⟨entryId entries[i].key (countAt (entries.take i) entries[i]), entries[i]⟩ :=
  List.getElem_mapIdx

/-- One more entry is numbered after all the others, whose numbers stay. -/
theorem numbered_concat (entries : List LogEntry) (e : LogEntry) :
    numbered (entries ++ [e]) = numbered entries ++ [⟨entryId e.key (countAt entries e), e⟩] := by
  rw [numbered, List.mapIdx_concat, List.take_left]
  refine congrArg (· ++ _) (List.ext_getElem (by simp) fun i h₁ h₂ => ?_)
  have hi : i < entries.length := by simpa using h₂
  rw [List.getElem_mapIdx, getElem_numbered entries i hi h₂,
    List.take_append_of_le_length (Nat.le_of_lt hi)]

theorem countAt_concat (entries : List LogEntry) (e' e : LogEntry) :
    countAt (entries ++ [e']) e = countAt entries e + if e'.key = e.key then 1 else 0 := by
  simp only [countAt, List.countP_append, List.countP_singleton, decide_eq_true_eq,
    LogEntry.key_inj]

/-- Entries of one place at different positions have different numbers. -/
theorem countAt_lt {entries : List LogEntry} {i j : Nat} (hij : i < j) (hj : j < entries.length)
    (hp : entries[i].originalPosition = entries[j].originalPosition) :
    countAt (entries.take i) entries[i] < countAt (entries.take j) entries[j] := by
  calc countAt (entries.take i) entries[i]
      < countAt (entries.take (i + 1)) entries[i] := by
        rw [List.take_succ_eq_append_getElem (by omega), countAt_concat, if_pos rfl]
        exact Nat.lt_succ_self _
    _ ≤ countAt (entries.take j) entries[i] :=
        (List.take_sublist_take_left hij).countP_le
    _ = countAt (entries.take j) entries[j] := by rw [countAt, hp, countAt]

/-- **No two entries get one identity.** -/
theorem nodup_ids_numbered (entries : List LogEntry) :
    ((numbered entries).map (·.id)).Nodup := by
  rw [List.Nodup, List.pairwise_iff_getElem]
  intro i j hi hj hij hid
  have hj' : j < entries.length := by simpa using hj
  rw [List.getElem_map, List.getElem_map, getElem_numbered _ i (by omega),
    getElem_numbered _ j hj', entryId_inj, LogEntry.key_inj] at hid
  exact absurd hid.2 (Nat.ne_of_lt (countAt_lt hij hj' hid.1))

/-- More entries get identities after those that have one. -/
theorem numbered_prefix_append (entries more : List LogEntry) :
    numbered entries <+: numbered (entries ++ more) := by
  induction more generalizing entries with
  | nil => simp
  | cons e more ih =>
    rw [List.append_cons]
    refine List.IsPrefix.trans ?_ (ih (entries ++ [e]))
    rw [numbered_concat]
    exact List.prefix_append _ _

/-! ## The counters -/

/-- **What is stored is what is numbered**, and the counters say which number is next. -/
structure Filed (t : LogTree) : Prop where
  stored : t.stored = numbered t.entries
  next : ∀ e : LogEntry, t.nextCount e.key = countAt t.entries e

theorem nextCount_file (t : LogTree) (e : LogEntry) (key : String) :
    (t.file e).nextCount key = t.nextCount key + if e.key = key then 1 else 0 := by
  by_cases h : key = e.key
  · simp [nextCount, file, h]
  · simp [nextCount, file, h, Ne.symm h]

theorem Filed.file {t : LogTree} (h : Filed t) (e : LogEntry) : Filed (t.file e) := by
  have hentries : (t.file e).entries = t.entries ++ [e] := by simp [LogTree.entries, LogTree.file]
  refine ⟨?_, fun e' => ?_⟩
  · rw [hentries, numbered_concat, ← h.stored, ← h.next]
    rfl
  · rw [nextCount_file, h.next, hentries, countAt_concat]

theorem Filed.fileAll {t : LogTree} (h : Filed t) (entries : List LogEntry) :
    Filed (t.fileAll entries) := by
  induction entries generalizing t with
  | nil => exact h
  | cons e rest ih => exact ih (h.file e)

theorem filed_forget (t : LogTree) (phase : Phase) : Filed (t.forget phase) :=
  ⟨rfl, fun _ => rfl⟩

theorem filed_load (t : LogTree) : Filed t.load := (t.filed_forget .loaded).fileAll _

/-! ## The identities of a tree -/

@[simp] theorem logItem_id (registry : Registry) (i : Nat) (s : FiledEntry) :
    (logItem registry i s).1.id = s.id := by
  unfold logItem
  split <;> rfl

/-- **No two entries that show have one identity.** -/
theorem Filed.nodup_ids {t : LogTree} (h : t.Filed) : (t.stored.map (·.id)).Nodup := by
  rw [h.stored]
  exact nodup_ids_numbered t.entries

/-- An entry that shows is named after its place. -/
theorem Filed.id_of_mem {t : LogTree} (h : t.Filed) {s : FiledEntry} (hs : s ∈ t.stored) :
    s.entry ∈ t.entries ∧ ∃ n, s.id = entryId s.entry.key n := by
  refine ⟨List.mem_map_of_mem hs, ?_⟩
  rw [h.stored] at hs
  obtain ⟨i, hi, rfl⟩ := List.mem_iff_getElem.mp hs
  rw [getElem_numbered _ i (by simpa using hi)]
  exact ⟨_, rfl⟩

/-- The identity of an entry tells which one it is. -/
theorem Filed.stored_inj {t : LogTree} (h : t.Filed) {i j : Nat} {s s' : FiledEntry}
    (hs : t.stored[i]? = some s) (hs' : t.stored[j]? = some s') (hid : s'.id = s.id) :
    j = i ∧ s' = s := by
  obtain ⟨hj, -⟩ := List.getElem?_eq_some_iff.mp hs'
  have hij : j = i := by
    refine (List.getElem?_inj (by simpa using hj) h.nodup_ids).mp ?_
    rw [List.getElem?_map, List.getElem?_map, hs, hs', Option.map_some, Option.map_some, hid]
  subst hij
  exact ⟨rfl, Option.some.inj (hs'.symm.trans hs)⟩

theorem Filed.id_ne_entryId {t : LogTree} (h : t.Filed) {i j : Nat} {s s' : FiledEntry}
    (hs : t.stored[i]? = some s) (hs' : t.stored[j]? = some s') (k : Nat) :
    s.id ≠ entryId s'.id k := by
  obtain ⟨-, n, hid⟩ := h.id_of_mem (List.mem_of_getElem? hs)
  obtain ⟨-, n', hid'⟩ := h.id_of_mem (List.mem_of_getElem? hs')
  rw [hid, hid']
  exact fun heq => key_ne_entryId _ _ _ (entryId_inj.mp heq).1

theorem Filed.id_ne_propertyId {t : LogTree} (h : t.Filed) {i : Nat} {s : FiledEntry}
    (hs : t.stored[i]? = some s) (parent name : String) : s.id ≠ propertyId parent name := by
  obtain ⟨-, n, hid⟩ := h.id_of_mem (List.mem_of_getElem? hs)
  rw [hid]
  exact entryId_ne_propertyId _ _ _ _

end LogTree

namespace Browsing

theorem filed_run (actions : List TreeAction) : (({} : Browsing).run actions).tree.Filed :=
  filing_induction LogTree.filed_forget (fun _ e h => h.file e)
    (fun _ _ _ _ _ _ h => ⟨h.stored, h.next⟩) actions

/-- **Identities follow the order of arrival.**  The identity of every stored entry is its source,
line and column and the number of entries before it from the same place; so no two entries share
one, an addition keeps those that are there, and so does a load of a loaded tree. -/
theorem stored_ids_run (actions : List TreeAction) :
    let t := (({} : Browsing).run actions).tree
    (∀ i (h : i < t.stored.length),
      let p := t.stored[i].entry.originalPosition
      t.stored[i].id = p.source ++ ":" ++ toString p.line ++ ":" ++ toString p.column ++ "[" ++
        toString ((t.stored.take i).countP fun s => s.entry.originalPosition = p) ++ "]") ∧
    (t.stored.map (·.id)).Nodup ∧
    (∀ entries, t.stored <+: (t.add entries).stored) ∧
    (t.phase = .loaded → t.load.stored = t.stored) := by
  intro t
  have hfiled : t.Filed := filed_run actions
  refine ⟨fun i h => ?_, ?_, fun entries => ?_, fun hloaded => ?_⟩
  · have hlen : i < t.entries.length := by simpa [LogTree.entries] using h
    have hcount : LogTree.countAt (t.entries.take i) t.stored[i].entry
        = (t.stored.take i).countP fun s =>
          s.entry.originalPosition = t.stored[i].entry.originalPosition := by
      rw [LogTree.countAt, LogTree.entries, ← List.map_take, List.countP_map]
      rfl
    have hentry : t.entries[i] = t.stored[i].entry := List.getElem_map _
    have hlen' : i < (LogTree.numbered t.entries).length := by simpa using hlen
    have hid : t.stored[i].id = (LogTree.numbered t.entries)[i].id := by
      simp only [← hfiled.stored]
    rw [hid, LogTree.getElem_numbered _ i hlen hlen', hentry, hcount]
    rfl
  · exact hfiled.nodup_ids
  · unfold LogTree.add
    split
    · exact List.prefix_refl _
    · rw [hfiled.stored, (hfiled.fileAll entries).stored, LogTree.entries_fileAll]
      exact LogTree.numbered_prefix_append _ _
  · have hknown : t.known = t.entries := by
      rw [LogTree.known, (apart_run actions).idle hloaded, List.append_nil]
    rw [t.filed_load.stored, LogTree.entries_load, hknown, ← hfiled.stored]

end Browsing

end ConsoleLens
