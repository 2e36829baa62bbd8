import ConsoleLens.Proofs.Property.Shown
import ConsoleLens.Proofs.Tree.Identity
import ConsoleLens.Proofs.Tree.Place

/-!
# Proofs/Tree/Siblings — when the children of a node have identities of their own

A list that is handed out at once puts identities of one or two sorts beside each other:

    groups of a level       stem ++ label       labels start with different names
    entries of a level      place[n]            numbered
    arguments               id[0], id[1], …     numbered
    properties              id['name']          one regular property and one slot of a name

**Twins**, siblings of one identity, come in two ways only.  A regular property and an internal slot
of an object have one name; or an entry stands beside a group that is called like the end of its
identity, which takes a source that is nothing but the way down to the level and a slash
(`InPlace.source_eq_stem`).  `siblings_apart_iff` says so for every query and answer, and **where
there are no twins, every item handed out names its own node**.
-/

namespace ConsoleLens

namespace Text

/-- A text has no slash, or it is cut at its last one. -/
theorem exists_last_slash (text : String) :
    '/' ∉ text.toList ∨ ∃ d r : String, text = d ++ "/" ++ r ∧ '/' ∉ r.toList := by
  by_cases h : '/' ∈ text.toList
  · obtain ⟨r, d, hcut, hr⟩ := List.eq_append_cons_of_mem (List.mem_reverse.mpr h)
    refine .inr ⟨String.ofList d.reverse, String.ofList r.reverse, ?_, by simpa using hr⟩
    rw [← String.toList_inj, ← List.reverse_inj, hcut]
    simp
  · exact .inl h

/-- **A segment behind a text is one more, or it goes on with the last one.** -/
theorem segments_append_segment {tail : String} (hne : tail.toList ≠ [])
    (htail : '/' ∉ tail.toList) (text : String) :
    segments (text ++ tail) = segments text ++ [tail] ∨
      (segments (text ++ tail)).length = (segments text).length := by
  have hplain {r : String} (hr : '/' ∉ r.toList) :
      segments (r ++ tail) = segments r ++ [tail] ∨
        (segments (r ++ tail)).length = (segments r).length := by
    by_cases hempty : r = ""
    · subst hempty
      rw [String.empty_append, segments_of_notMem hne htail]
      exact .inl rfl
    · have hr' : segments r = [r] := segments_of_notMem (by simpa using hempty) hr
      have hjoined : segments (r ++ tail) = [r ++ tail] :=
        segments_of_notMem (by simp [hempty]) (by simp [hr, htail])
      exact .inr (by rw [hr', hjoined, List.length_singleton, List.length_singleton])
  rcases exists_last_slash text with h | ⟨d, r, rfl, hr⟩
  · exact hplain h
  · rw [String.append_assoc, segments_append, segments_append]
    rcases hplain hr with h | h
    · exact .inl (by rw [h, List.append_assoc])
    · exact .inr (by rw [List.length_append, List.length_append, h])

end Text

/-! ## The groups of a level -/

namespace PathIndex

theorem segments_prefix_compact (path label : String) (l : PathIndex) :
    Text.segments label <+: Text.segments (compact path label l).label := by
  fun_induction compact path label l with
  | case1 path label name es c cs ih =>
    rw [Text.segments_append] at ih
    exact (List.prefix_append _ _).trans ih
  | case2 => exact List.prefix_rfl

/-- A group that is merged has more segments than the name that it starts with. -/
theorem Named.label_compact {l : PathIndex} (h : l.Named fun s => Text.segments s = [s])
    (path label : String) : (l.compact path label).label = label ∨
      (Text.segments label).length < (Text.segments (l.compact path label).label).length := by
  unfold PathIndex.compact
  split
  · next name es c cs =>
    obtain ⟨hname, -⟩ := h
    have hlonger := (segments_prefix_compact (path ++ "/" ++ name) (label ++ "/" ++ name)
      (.level es (c :: cs))).length_le
    rw [Text.segments_append, hname _ List.mem_cons_self, List.length_append] at hlonger
    exact .inr hlonger
  · exact .inl rfl

/-- **A group's path is the stem of its level and its label**, which starts with a name. -/
theorem Named.mem_groups {l : PathIndex} (h : l.Named fun s => Text.segments s = [s])
    {path : Option String} {g : PathBranch} (hg : g ∈ l.groups path) :
    g.path = stem path ++ g.label ∧ ∃ c ∈ l.children, [c.1] <+: Text.segments g.label ∧
      (g.label = c.1 ∨ 1 < (Text.segments g.label).length) := by
  obtain ⟨hname, hbelow⟩ := h
  obtain ⟨c, hc, rfl⟩ := List.mem_map.mp hg
  have hstart := segments_prefix_compact (childPath path c.1) c.1 c.2
  have hlabel := (hbelow c hc).label_compact (childPath path c.1) c.1
  rw [hname c hc] at hstart hlabel
  exact ⟨path_compact (childPath_eq path c.1) c.2, c, hc, hstart, hlabel⟩

/-- **No two groups of a level have one path.** -/
theorem Tidy.nodup_groups {n : Nat} {l : PathIndex} (h : l.Tidy n)
    (hnamed : l.Named fun s => Text.segments s = [s]) (path : Option String) :
    ((l.groups path).map (·.path)).Nodup := by
  obtain ⟨-, -, hnames, -⟩ := h
  obtain ⟨hname, -⟩ := hnamed
  rw [groups, List.map_map, List.Nodup, List.pairwise_map]
  refine hnames.imp_of_mem fun {c c'} hc hc' hlt heq => hlt.ne ?_
  have hstart := segments_prefix_compact (childPath path c.1) c.1 c.2
  have hstart' := segments_prefix_compact (childPath path c'.1) c'.1 c'.2
  simp only [Function.comp_apply, path_compact (childPath_eq path _),
    String.append_right_inj] at heq
  rw [heq, hname c hc] at hstart
  rw [hname c' hc'] at hstart'
  simpa using List.prefix_of_prefix_length_le hstart hstart' le_rfl

end PathIndex

/-! ## Groups beside entries -/

namespace LogTree

/-- **No entry of a level is a twin of a group.**  Only one that was logged at the stem of the level
could be. -/
def LevelApart (t : LogTree) (path : Option String) : Prop :=
  ∀ l, t.levelAt? path = some l → ∀ i ∈ l.entries, ∀ s, t.stored[i]? = some s →
    s.entry.originalPosition.source = PathIndex.stem path → ∀ g ∈ l.groups path, s.id ≠ g.path

/-- **Every source goes on after its last slash.** -/
def NamesFiles (t : LogTree) : Prop :=
  ∀ e ∈ t.entries, e.originalPosition.source ≠ "" ∧
    e.originalPosition.source.toList.getLast? ≠ some '/'

instance (t : LogTree) : Decidable t.NamesFiles := inferInstanceAs (Decidable (∀ e ∈ _, _ ∧ _))

theorem NamesFiles.levelApart {t : LogTree} (h : t.NamesFiles) (path : Option String) :
    t.LevelApart path := by
  intro l _ i _ s hs hsource
  obtain ⟨hne, hlast⟩ := h s.entry (List.mem_map_of_mem (List.mem_of_getElem? hs))
  cases path with
  | none => exact absurd hsource hne
  | some path => exact absurd (by simp [hsource, PathIndex.stem]) hlast

variable {t : LogTree}

/-- An identity is the source and one segment behind it. -/
theorem Filed.id_eq_append (h : t.Filed) {s : FiledEntry} (hs : s ∈ t.stored) :
    ∃ tail : String, s.id = s.entry.originalPosition.source ++ tail ∧ tail.toList ≠ [] ∧
      '/' ∉ tail.toList := by
  obtain ⟨-, n, hid⟩ := h.id_of_mem hs
  have hslash (k : Nat) : '/' ∉ Nat.toDigits 10 k := notMem_toDigits rfl k
  refine ⟨":" ++ toString s.entry.originalPosition.line ++ ":" ++
    toString s.entry.originalPosition.column ++ "[" ++ toString n ++ "]", ?_, by simp, ?_⟩
  · rw [hid, entryId, LogEntry.key, Position.text, Position.location]
    simp only [String.append_assoc]
  · simp [hslash]

theorem segments_stem_append (path : Option String) (label : String) :
    Text.segments (PathIndex.stem path ++ label) = segmentsOf path ++ Text.segments label := by
  cases path with
  | none =>
    rw [PathIndex.stem, String.empty_append]
    rfl
  | some path => exact Text.segments_append path label

/-- The source of an entry at a level has the level's segments, and no others. -/
theorem Located.segments_eq (h : t.Located) {path : Option String} {l : PathIndex}
    (hl : t.levelAt? path = some l) {i : Nat} (hi : i ∈ l.entries) {s : FiledEntry}
    (hs : t.stored[i]? = some s) :
    Text.segments s.entry.originalPosition.source = segmentsOf path := by
  obtain ⟨hentries, -, -⟩ := h.placed_levelAt hl
  obtain ⟨s', hs', hsegments⟩ := hentries i hi
  rwa [Option.some.inj (hs'.symm.trans hs)] at hsegments

/-- **An entry that is a twin of a group was logged at the stem of their level.**  The last segment
of the identity is all that the group may be called, so nothing of the source is left for it. -/
theorem InPlace.source_eq_stem (ht : t.InPlace) {path : Option String} {l : PathIndex}
    (hl : t.levelAt? path = some l) {i : Nat} (hi : i ∈ l.entries) {s : FiledEntry}
    (hs : t.stored[i]? = some s) {g : PathBranch} (hg : g ∈ l.groups path) (hid : s.id = g.path) :
    s.entry.originalPosition.source = PathIndex.stem path := by
  have hnamed := ht.named_levelAt hl
  obtain ⟨hpath, c, hc, ⟨more, hstart⟩, hlabel⟩ := hnamed.mem_groups hg
  obtain ⟨hname, -⟩ := hnamed
  obtain ⟨tail, htail, hne, hslash⟩ := ht.filed.id_eq_append (List.mem_of_getElem? hs)
  rw [hid, hpath] at htail
  -- the tail is the label, or it goes on with the source's last segment and the label has none
  have htail' := Text.segments_append_segment hne hslash s.entry.originalPosition.source
  rw [← htail, segments_stem_append, ht.located.segments_eq hl hi hs] at htail'
  rcases htail' with h | h
  · rw [List.append_cancel_left_eq] at h
    have hshort : g.label = c.1 := hlabel.resolve_right (by simp [h])
    have hlast : g.label = tail := by
      rw [hshort, hname c hc] at h
      exact hshort.trans (List.singleton_inj.mp h)
    rw [hlast, String.append_left_inj] at htail
    exact htail.symm
  · rw [← hstart] at h
    simp at h

/-- **No two entries of a level have one identity.** -/
theorem InPlace.nodup_logsAt (ht : t.InPlace) {path : Option String} {l : PathIndex}
    (hl : t.levelAt? path = some l) : ((t.logsAt l).map (·.2.id)).Nodup := by
  have hentries := (ht.shelved.tidy_levelAt hl).pairwise_entries
  rw [List.Nodup, List.pairwise_map]
  refine (t.pairwise_logsAt hentries).imp_of_mem fun {x y} hx hy hxy hid => ?_
  obtain ⟨hindex, hsame⟩ := ht.filed.stored_inj (mem_logsAt.mp hy).2 (mem_logsAt.mp hx).2 hid
  rcases hxy with hline | ⟨-, hlt⟩
  · exact hline.ne (by rw [hsame])
  · exact hlt.ne hindex

/-- **The items of a level are apart when no entry is a twin of a group.** -/
theorem InPlace.nodup_itemsAt_iff (ht : t.InPlace) (registry : Registry) (path : Option String) :
    ((t.itemsAt registry path).map (·.1.id)).Nodup ↔ t.LevelApart path := by
  cases hl : t.levelAt? path with
  | none => simp [itemsAt, LevelApart, hl]
  | some l =>
    have hids : (t.itemsAt registry path).map (·.1.id) =
        (l.groups path).map (·.path) ++ (t.logsAt l).map (·.2.id) := by
      rw [itemsAt_eq registry hl, List.map_append, List.map_map, List.map_map]
      simp only [Function.comp_def, branchItem, logItem_id]
    have hgroups := (ht.shelved.tidy_levelAt hl).nodup_groups (ht.named_levelAt hl) path
    rw [hids, List.nodup_append']
    constructor
    · rintro ⟨-, -, hapart⟩ l' hl' i hi s hs - g hg hid
      obtain rfl := Option.some.inj (hl.symm.trans hl')
      exact List.disjoint_left.mp hapart (List.mem_map.mpr ⟨g, hg, rfl⟩)
        (List.mem_map.mpr ⟨(i, s), mem_logsAt.mpr ⟨hi, hs⟩, hid⟩)
    · intro hapart
      refine ⟨hgroups, ht.nodup_logsAt hl, List.disjoint_left.mpr fun id hgroup hlog => ?_⟩
      obtain ⟨g, hg, rfl⟩ := List.mem_map.mp hgroup
      obtain ⟨x, hx, hid⟩ := List.mem_map.mp hlog
      obtain ⟨hi, hs⟩ := mem_logsAt.mp hx
      exact hapart l hl _ hi _ hs (ht.source_eq_stem hl hi hs hg hid) g hg hid

/-- The top level is apart in the flat view, and in the grouped one as any level is. -/
theorem InPlace.nodup_topItems_iff (ht : t.InPlace) (registry : Registry) (settings : Settings) :
    ((t.topItems registry settings).map (·.1.id)).Nodup ↔
      (settings.groupByPath → t.LevelApart none) := by
  unfold topItems
  split
  · next hg => simp only [hg, true_implies, ht.nodup_itemsAt_iff]
  · next hg =>
    rw [ids_flatItems]
    exact iff_of_true ht.filed.nodup_ids fun h => absurd h hg

/-- **Arguments are apart**, being numbered. -/
theorem nodup_argItems (registry : Registry) (index : Nat) (id : String) (e : LogEntry) :
    ((argItems registry index id e).map (·.1.id)).Nodup := by
  have hids : (argItems registry index id e).map (·.1.id) =
      (List.range' 0 (e.previews registry).length).map (entryId id) := by
    rw [← List.zipIdx_map_snd, argItems, List.map_map, List.map_map]
    rfl
  rw [hids, List.nodup_map_iff fun m n h => (entryId_inj.mp h).2]
  exact List.nodup_range'

/-- Opening a node lists a level, or what is numbered. -/
theorem InPlace.nodup_opening_iff (ht : t.InPlace) {registry : Registry} {id : String}
    {hs : List Handout} (h : t.opening registry id = .ready hs) :
    (hs.map (·.1.id)).Nodup ↔
      ∀ path, t.arena.get? id = some (.group path) → t.LevelApart (some path) := by
  unfold opening at h
  split at h
  · next hn =>
    obtain rfl := Opening.ready.inj h
    simp [hn]
  · next path hn =>
    obtain rfl := Opening.ready.inj h
    simp [hn, ht.nodup_itemsAt_iff]
  · next index hn =>
    split at h
    · obtain rfl := Opening.ready.inj h
      simp [hn]
    · next s _ =>
      obtain rfl := Opening.ready.inj h
      simp [hn, nodup_argItems]
  · next index p hn =>
    split at h
    · obtain rfl := Opening.ready.inj h
      simp [hn]
    · cases h

end LogTree

/-! ## Properties -/

namespace Property

/-- **No name is that of a regular property and of an internal slot.** -/
def NamesApart (ps : List Property) : Prop :=
  ∀ p ∈ ps, ∀ q ∈ ps, p.name = q.name → p.isInternal = q.isInternal

/-- **Names are apart when no regular property is called like a slot.** -/
theorem nodup_names_iff {ps : List Property} (h : (ps.map key).Nodup) :
    (ps.map (·.name)).Nodup ↔ NamesApart ps := by
  constructor
  · intro hnames p hp q hq hname
    rw [List.inj_on_of_nodup_map hnames hp hq hname]
  · intro hapart
    refine h.of_map.map_on fun p hp q hq hname => ?_
    exact List.inj_on_of_nodup_map h hp hq (Prod.ext (hapart p hp q hq hname) hname)

end Property

/-- The properties of a value are apart when their names are. -/
theorem LogTree.nodup_propertyItems_iff (e : Surroundings) (showEnumerable : Bool) (f : Fetch) :
    (((e.properties f.handle showEnumerable).map
      (propertyItem (f.formatter e.registry) f)).map (·.1.id)).Nodup ↔
      Property.NamesApart (e.properties f.handle showEnumerable) := by
  have hinj : Function.Injective (propertyId f.parent) := fun name name' h => by
    simpa [propertyId, String.append_assoc] using h
  have hkeys : ((e.properties f.handle showEnumerable).map Property.key).Nodup :=
    Property.nodup_keys_ofAnswers _ _ _
  have hids : ((e.properties f.handle showEnumerable).map
      (propertyItem (f.formatter e.registry) f)).map (·.1.id) =
      ((e.properties f.handle showEnumerable).map (·.name)).map (propertyId f.parent) := by
    rw [List.map_map, List.map_map]
    rfl
  rw [hids, List.nodup_map_iff hinj, Property.nodup_names_iff hkeys]

/-! ## Queries and answers -/

namespace LogTree

/-- The identities that items are handed out with. -/
theorem map_id_items (hs : List Handout) : (hs.map (·.1)).map (·.id) = hs.map (·.1.id) :=
  List.map_map

theorem lastNamed_of_nodup {hs : List Handout} (hnodup : (hs.map (·.1.id)).Nodup) {h : Handout}
    (hmem : h ∈ hs) : lastNamed h.1.id hs = some h.2 := by
  induction hs with
  | nil => cases hmem
  | cons x rest ih =>
    rw [List.map_cons, List.nodup_cons] at hnodup
    obtain ⟨hfresh, hrest⟩ := hnodup
    rw [lastNamed]
    rcases List.mem_cons.mp hmem with rfl | hmem
    · have hnone : lastNamed h.1.id rest = none := by
        refine Option.eq_none_iff_forall_ne_some.mpr fun n hn => hfresh ?_
        obtain ⟨item, hitem, hid⟩ := mem_of_lastNamed hn
        exact List.mem_map.mpr ⟨(item, n), hitem, hid⟩
      rw [hnone, if_pos rfl, Option.none_or]
    · rw [ih hrest hmem, Option.some_or]

end LogTree

namespace Browsing

/-- **A query or an answer lists no twins.** -/
def TwinFree (b : Browsing) : TreeAction → Prop
  | .query e none => b.tree.ready → e.settings.groupByPath → b.tree.LevelApart none
  | .query _ (some id) => b.tree.ready →
      ∀ path, b.tree.arena.get? id = some (.group path) → b.tree.LevelApart (some path)
  | .resume e ticket =>
    match b.waitingAt ticket with
    | some (.load settings) => settings.groupByPath → b.tree.LevelApart none
    | some (.properties settings f) =>
      b.tree.generation = f.generation → b.tree.arena.contains f.parent →
        Property.NamesApart (e.properties f.handle settings.showEnumerable)
    | none => True
  | _ => True

theorem nodup_query_iff {b : Browsing} (ht : b.tree.InPlace) {e : Surroundings}
    {parent : Option String} {items : List Item}
    (h : (b.step (.query e parent)).1 = some items) :
    (items.map (·.id)).Nodup ↔ b.TwinFree (.query e parent) := by
  by_cases hr : b.tree.ready
  · cases parent with
    | none =>
      rw [step_query_none hr] at h
      by_cases hp : b.tree.phase = .loaded
      · rw [if_pos hp] at h
        obtain rfl := Option.some.inj h
        simpa only [TwinFree, hr, true_implies, LogTree.map_id_items] using
          ht.nodup_topItems_iff e.registry e.settings
      · rw [if_neg hp] at h
        cases h
    | some id =>
      rw [step_query_some hr] at h
      cases ho : b.tree.opening e.registry id with
      | ready hs =>
        rw [ho] at h
        obtain rfl := Option.some.inj h
        simpa only [TwinFree, hr, true_implies, LogTree.map_id_items] using
          ht.nodup_opening_iff ho
      | fetch f =>
        rw [ho] at h
        cases h
  · rw [step_query_of_not_ready hr] at h
    obtain rfl := Option.some.inj h
    cases parent with
    | none => simp [TwinFree, hr]
    | some id => simp [TwinFree, hr]

theorem nodup_resume_iff {b : Browsing} (ht : b.tree.InPlace) {e : Surroundings} {ticket : Nat}
    {items : List Item} (h : (b.step (.resume e ticket)).1 = some items) :
    (items.map (·.id)).Nodup ↔ b.TwinFree (.resume e ticket) := by
  cases hw : b.waitingAt ticket with
  | none =>
    rw [step_resume_of_none hw] at h
    cases h
  | some w =>
    cases w with
    | load settings =>
      rw [step_resume_load hw] at h
      by_cases hp : b.tree.phase = .loaded
      · rw [if_pos hp] at h
        obtain rfl := Option.some.inj h
        simpa only [TwinFree, hw, LogTree.map_id_items] using
          ht.nodup_topItems_iff e.registry settings
      · rw [if_neg hp] at h
        cases h
    | properties settings f =>
      rw [step_resume_properties hw, LogTree.receive_eq] at h
      split at h
      · next hcurrent =>
        obtain rfl := Option.some.inj h
        simpa only [TwinFree, hw, hcurrent.1, hcurrent.2, true_implies, LogTree.handOut_fst,
          LogTree.map_id_items] using LogTree.nodup_propertyItems_iff e settings.showEnumerable f
      · next hdropped =>
        obtain rfl := Option.some.inj h
        simp only [TwinFree, hw, List.map_nil, List.nodup_nil, true_iff]
        exact fun hg hp => absurd ⟨hg, hp⟩ hdropped

/-- **What lists no twins names its items' own nodes.** -/
theorem names_of_nodup {b : Browsing} {a : TreeAction} {items : List Item}
    (h : (b.step a).1 = some items) (hnodup : (items.map (·.id)).Nodup) :
    ∃ hs, b.tree.Lists hs ∧ items = hs.map (·.1) ∧
      ∀ h ∈ hs, (b.step a).2.tree.arena.get? h.1.id = some h.2 := by
  have look (ha : a.looks) : ∃ hs, b.tree.Lists hs ∧ items = hs.map (·.1) ∧
      ∀ h ∈ hs, (b.step a).2.tree.arena.get? h.1.id = some h.2 := by
    rcases b.step_look ha with ⟨hs, hlists, hitems, htree⟩ | ⟨hnone, -⟩
    · obtain rfl := Option.some.inj (h.symm.trans hitems)
      rw [LogTree.map_id_items] at hnodup
      refine ⟨hs, hlists, rfl, fun x hx => ?_⟩
      rw [htree, LogTree.get?_handOut, LogTree.lastNamed_of_nodup hnodup hx, Option.some_or]
    · cases hnone.symm.trans h
  cases a with
  | query e parent => exact look rfl
  | resume e ticket => exact look rfl
  | _ => cases h

/-- **Siblings have identities of their own exactly where no twins are listed**, in every state
there can be and for every query and answer.  Then each item names its own node from now on.  And
there are no twins where every source goes on after its last slash, unless the page answers with a
property and an internal slot of one name. -/
theorem siblings_apart_iff (actions : List TreeAction) (a : TreeAction) (items : List Item) :
    let b := ({} : Browsing).run actions
    (b.step a).1 = some items →
      ((items.map (·.id)).Nodup ↔ b.TwinFree a) ∧
      (b.TwinFree a → ∃ hs, b.tree.Lists hs ∧ items = hs.map (·.1) ∧
        ∀ h ∈ hs, (b.step a).2.tree.arena.get? h.1.id = some h.2) ∧
      (b.tree.NamesFiles →
        (∀ e ticket, a = .resume e ticket → ∀ handle showEnumerable,
          Property.NamesApart (e.properties handle showEnumerable)) →
        b.TwinFree a) := by
  intro b h
  have ht : b.tree.InPlace := inPlace_run actions
  have hiff : (items.map (·.id)).Nodup ↔ b.TwinFree a := by
    cases a with
    | query e parent => exact nodup_query_iff ht h
    | resume e ticket => exact nodup_resume_iff ht h
    | _ => cases h
  refine ⟨hiff, fun hfree => names_of_nodup h (hiff.mpr hfree), fun hfiles hnames => ?_⟩
  unfold TwinFree
  split
  · exact fun _ _ => hfiles.levelApart none
  · exact fun _ path _ => hfiles.levelApart (some path)
  · next e ticket =>
    split
    · exact fun _ => hfiles.levelApart none
    · exact fun _ _ => hnames e ticket rfl _ _
    · trivial
  · trivial

/-- The property `x` of the logged object gets its item. -/
theorem siblings_apart_iff_flatPage :
    let b := ({} : Browsing).run [.load, .add [loggedObject], .query flatPage none,
      .query flatPage (some "/a.ts:1:1[0]")]
    ∃ items, (b.step (.resume flatPage 0)).1 = some items ∧ (items.map (·.id)).Nodup ∧
      b.TwinFree (.resume flatPage 0) := by
  intro b
  obtain ⟨items, hitems⟩ : ∃ items, (b.step (.resume flatPage 0)).1 = some items :=
    ⟨_, congrArg Prod.fst (step_resume_properties rfl flatPage)⟩
  obtain ⟨hiff, -, hfree⟩ := siblings_apart_iff _ _ items hitems
  have hproperties (handle : String) (showEnumerable : Bool) :
      Property.NamesApart (flatPage.properties handle showEnumerable) := by
    cases showEnumerable with
    | false =>
      have hnone : flatPage.properties handle false = [] := List.mergeSort_nil
      simp [hnone, Property.NamesApart]
    | true =>
      have hx : flatPage.properties handle true = [_] := List.mergeSort_singleton _
      simp [hx, Property.NamesApart]
  have hfiles : b.tree.NamesFiles := by decide
  have hb := hfree hfiles fun e ticket h => by cases h; exact hproperties
  exact ⟨items, hitems, hiff.mpr hb, hb⟩

/-! ## Twins -/

/-- A page where the prototype of an object is an internal slot, and a property as well. -/
def twinPage : Surroundings :=
  let object (handle : String) : RemoteObject := { kind := .object, objectId := some handle }
  { settings := { groupByPath := false, showEnumerable := true }
    answers := fun _ =>
      (some { result := [{ name := "[[Prototype]]", value := some (object "p") }]
              internalProperties :=
                some [{ name := "[[Prototype]]", value := some (object "q") }] },
       some {}) }

/-- The two prototypes of an object are twins, and so are the group `:1:1[0]` below `src` and an
entry that was logged at `src/`. -/
theorem twinPage_twins :
    let asked := ({} : Browsing).run [.load, .add [loggedObject], .query twinPage none,
      .query twinPage (some "/a.ts:1:1[0]")]
    let listed := ({} : Browsing).run [.load, .add [{ originalPosition := ⟨1, 1, "src/"⟩ },
      { originalPosition := ⟨1, 1, "src/:1:1[0]"⟩ }], .query {} none]
    (∃ items, (asked.step (.resume twinPage 0)).1 = some items ∧ ¬ (items.map (·.id)).Nodup) ∧
    ∃ items, (listed.step (.query {} (some "src"))).1 = some items ∧
      ¬ (items.map (·.id)).Nodup := by
  intro asked listed
  constructor
  · have hwaits : asked.waitingAt 0 =
        some (.properties twinPage.settings ⟨"/a.ts:1:1[0]", "h", 0, "", 1⟩) := rfl
    have hslots : twinPage.properties "h" true = [objectAt "[[Prototype]]" "p",
        { objectAt "[[Prototype]]" "q" with isInternal := true }] :=
      List.mergeSort_of_pairwise (by decide)
    refine ⟨_, congrArg Prod.fst (step_resume_properties hwaits twinPage), ?_⟩
    rw [LogTree.receive_eq, if_pos ⟨rfl, by decide⟩, LogTree.handOut_fst,
      LogTree.ids_propertyItems]
    change ¬ ((twinPage.properties "h" true).map fun p =>
      "/a.ts:1:1[0]" ++ "['" ++ p.name ++ "']").Nodup
    rw [hslots]
    decide
  · have hlisted : (listed.step (.query {} (some "src"))).1.map (·.map (·.id)) =
        some ["src/:1:1[0]", "src/:1:1[0]"] := by decide +kernel
    obtain ⟨items, hitems, hids⟩ := Option.map_eq_some_iff.mp hlisted
    exact ⟨items, hitems, by rw [hids]; decide⟩

end Browsing

end ConsoleLens
