import ConsoleLens.Proofs.Tree.Filing
import ConsoleLens.Proofs.Tree.Recall
import ConsoleLens.Proofs.Tree.Segment

/-!
# Proofs/Tree/Identity — identities name one node each, as long as names are plain

A node's identity is put together on the way down to it:

    group     segments joined by slashes
    entry     source:line:column[n]
    argument  its entry's [i]
    property  its value's ['name']

`Origin` is that way down.  **Where names are plain, it can be read back from the identity**
(`Origin.unique`): the end of the text tells the sort of the node, what comes before tells where it
is below, and a group is told from the others by its start or by its lack of brackets.  A name that
holds the start of another breaks this: an identity can then go over from one node to another
(`mixedPage`).
-/

namespace ConsoleLens

namespace LogTree

/-! ## Telling groups from entries -/

/-- Texts that can only be a group's, and texts that can only be an entry's or start with one. -/
structure Tells (t : LogTree) (ofGroup ofEntry : String → Prop) : Prop where
  segment : ∀ s, t.IsSegment s → ofGroup s
  join : ∀ p s, ofGroup p → t.IsSegment s → ofGroup (p ++ "/" ++ s)
  entry : ∀ s ∈ t.stored, ofEntry s.id
  extend : ∀ p q, ofEntry p → ofEntry (p ++ q)
  apart : ∀ p, ofGroup p → ¬ ofEntry p

/-- **Names that keep identities apart**: no property has the start of another in its name, and when
entries are grouped, either all sources start with a slash or none has a bracket. -/
structure PlainNames (t : LogTree) (e : Surroundings) : Prop where
  properties : ∀ handle, ∀ p ∈ e.properties handle e.settings.showEnumerable, IsPlain p.name
  sources : e.settings.groupByPath →
    (∀ l ∈ t.entries, l.originalPosition.source.toList.head? = some '/') ∨
    ∀ l ∈ t.entries, '[' ∉ l.originalPosition.source.toList

/-- Where all sources start with a slash, a group's text does not. -/
theorem tells_of_slash {t : LogTree} (h : t.Filed)
    (hs : ∀ l ∈ t.entries, l.originalPosition.source.toList.head? = some '/') :
    t.Tells (fun p => ∃ c ∈ p.toList.head?, c ≠ '/') (fun p => p.toList.head? = some '/') where
  segment := by
    rintro s ⟨l, -, hl⟩
    obtain ⟨hne, hchars⟩ := Text.segments_spec hl
    obtain ⟨c, rest, hcons⟩ := List.exists_cons_of_ne_nil hne
    exact ⟨c, by simp [hcons], (hchars c (by simp [hcons])).2⟩
  join := by
    rintro p s ⟨c, hc, hne⟩ -
    exact ⟨c, by simp_all [List.head?_append], hne⟩
  entry := by
    intro s hmem
    obtain ⟨hentry, n, hid⟩ := h.id_of_mem hmem
    rw [hid, toList_entryId, LogEntry.key, Position.toList_text]
    simp [List.head?_append, hs _ hentry]
  extend := by
    intro p q hp
    simp [List.head?_append, hp]
  apart := by
    rintro p ⟨c, hc, hne⟩ hp
    rw [hp] at hc
    exact hne (Option.some.inj hc).symm

/-- Where no source has a bracket, no group's text has one. -/
theorem tells_of_no_bracket {t : LogTree} (h : t.Filed)
    (hs : ∀ l ∈ t.entries, '[' ∉ l.originalPosition.source.toList) :
    t.Tells (fun p => '[' ∉ p.toList) (fun p => '[' ∈ p.toList) := by
  have hsegment : ∀ s, t.IsSegment s → '[' ∉ s.toList := by
    rintro s ⟨l, hl, hmem⟩ hbracket
    exact hs l hl ((Text.segments_spec hmem).2 _ hbracket).1
  refine ⟨hsegment, fun p s hp hmem => ?_, fun s hmem => ?_, fun p q hp => ?_, fun p hp => hp⟩
  · simp [hp, hsegment s hmem]
  · obtain ⟨-, n, hid⟩ := h.id_of_mem hmem
    rw [hid, toList_entryId]
    simp
  · rw [String.toList_append]
    exact List.mem_append_left _ hp

/-! ## The way down to a node -/

/-- **Where an identity comes from**, and the node that it names for it. -/
inductive Origin (t : LogTree) (e : Surroundings) (ofGroup : String → Prop) :
    String → Node → Prop where
  | group {path : String} (hg : e.settings.groupByPath) (h : ofGroup path) :
      Origin t e ofGroup path (.group path)
  | entry {i : Nat} {s : FiledEntry} (hs : t.stored[i]? = some s) :
      Origin t e ofGroup s.id (logItem e.registry i s).2
  | arg {i j : Nat} {s : FiledEntry} {p : Preview} (hs : t.stored[i]? = some s)
      (hp : (s.entry.previews e.registry)[j]? = some p) :
      Origin t e ofGroup (entryId s.id j) (.value i p)
  | prop {parent name : String} {i j : Nat} {p q : Preview}
      (hparent : Origin t e ofGroup parent (.value i p)) (hname : IsPlain name)
      (h : lastNamed (propertyId parent name) (t.handoutsOf e parent (.value i p)) =
        some (.value j q)) :
      Origin t e ofGroup (propertyId parent name) (.value j q)

variable {t : LogTree} {e : Surroundings} {ofGroup ofEntry : String → Prop}

/-- An entry's node is its own, or its only argument's. -/
theorem logItem_snd (registry : Registry) (i : Nat) (s : FiledEntry) :
    (logItem registry i s).2 = .entry i ∨ ∃ p, (logItem registry i s).2 = .value i p := by
  unfold logItem
  split
  · exact .inl rfl
  · exact .inr ⟨_, rfl⟩

/-- A group names itself. -/
theorem Origin.of_group {id path : String} (h : Origin t e ofGroup id (.group path)) :
    path = id ∧ ofGroup path ∧ e.settings.groupByPath := by
  generalize hn : Node.group path = n at h
  cases h with
  | group hg hp => cases hn; exact ⟨rfl, hp, hg⟩
  | @entry i s hs =>
    rcases logItem_snd e.registry i s with h | ⟨p, h⟩ <;> cases hn.trans h
  | arg hs hp => cases hn
  | prop hparent hname h => cases hn

/-- An entry with several arguments is named by its own identity. -/
theorem Origin.of_entry {id : String} {index : Nat} (h : Origin t e ofGroup id (.entry index)) :
    ∃ s, t.stored[index]? = some s ∧ s.id = id := by
  generalize hn : Node.entry index = n at h
  cases h with
  | group hg hp => cases hn
  | @entry i s hs =>
    rcases logItem_snd e.registry i s with h | ⟨p, h⟩
    · cases hn.trans h
      exact ⟨s, hs, rfl⟩
    · cases hn.trans h
  | arg hs hp => cases hn
  | prop hparent hname h => cases hn

/-- What is no group has an identity that starts with an entry's. -/
theorem Origin.group_or (htells : e.settings.groupByPath → t.Tells ofGroup ofEntry) {id : String}
    {n : Node} (h : Origin t e ofGroup id n) (hg : e.settings.groupByPath) :
    n = .group id ∨ ofEntry id := by
  have htells := htells hg
  induction h with
  | group => exact .inl rfl
  | entry hs => exact .inr (htells.entry _ (List.mem_of_getElem? hs))
  | arg hs hp =>
    rw [entryId, String.append_assoc, String.append_assoc]
    exact .inr (htells.extend _ _ (htells.entry _ (List.mem_of_getElem? hs)))
  | prop hparent hname h ih =>
    rcases ih with ih | ih
    · cases ih
    · rw [propertyId, String.append_assoc, String.append_assoc]
      exact .inr (htells.extend _ _ ih)

/-- **Where names are plain, an identity says which node it names.** -/
theorem Origin.unique (hfiled : t.Filed)
    (htells : e.settings.groupByPath → t.Tells ofGroup ofEntry) {id : String} {n : Node}
    (h : Origin t e ofGroup id n) :
    ∀ {id' n'}, Origin t e ofGroup id' n' → id' = id → n' = n := by
  have hgroup {path id' : String} {n' : Node} (hg : e.settings.groupByPath) (hp : ofGroup path)
      (h' : Origin t e ofGroup id' n') (hid : id' = path) : n' = .group path := by
    subst hid
    exact (h'.group_or htells hg).resolve_right ((htells hg).apart _ hp)
  induction h with
  | group hg hp =>
    intro id' n' h' hid
    exact hgroup hg hp h' hid
  | @entry i s hs =>
    intro id' n' h' hid
    cases h' with
    | group hg hp => exact (hgroup hg hp (.entry hs) hid.symm).symm
    | entry hs' =>
      obtain ⟨rfl, rfl⟩ := hfiled.stored_inj hs hs' hid
      rfl
    | arg hs' hp' => exact absurd hid.symm (hfiled.id_ne_entryId hs hs' _)
    | prop hparent' hname' h' => exact absurd hid.symm (hfiled.id_ne_propertyId hs _ _)
  | @arg i j s p hs hp =>
    intro id' n' h' hid
    cases h' with
    | group hg hp' => exact (hgroup hg hp' (.arg hs hp) hid.symm).symm
    | entry hs' => exact absurd hid (hfiled.id_ne_entryId hs' hs _)
    | arg hs' hp' =>
      obtain ⟨hs_id, rfl⟩ := entryId_inj.mp hid
      obtain ⟨rfl, rfl⟩ := hfiled.stored_inj hs hs' hs_id
      rw [Option.some.inj (hp.symm.trans hp')]
    | prop hparent' hname' h' => exact absurd hid.symm (entryId_ne_propertyId _ _ _ _)
  | prop hparent hname hlast ih =>
    intro id' n' h' hid
    cases h' with
    | group hg hp => exact (hgroup hg hp (.prop hparent hname hlast) hid.symm).symm
    | entry hs' => exact absurd hid (hfiled.id_ne_propertyId hs' _ _)
    | arg hs' hp' => exact absurd hid (entryId_ne_propertyId _ _ _ _)
    | prop hparent' hname' hlast' =>
      obtain ⟨rfl, rfl⟩ := (propertyId_inj hname' hname).mp hid
      cases ih hparent' rfl
      exact Option.some.inj (hlast'.symm.trans hlast)

/-! ## Whatever shows has come this way -/

/-- A level lists its groups and entries. -/
theorem mem_itemsAt {registry : Registry} {path : Option String} {h : Handout}
    (hmem : h ∈ t.itemsAt registry path) :
    (∃ level g, t.levelAt? path = some level ∧ g ∈ level.groups path ∧ h = branchItem g) ∨
    ∃ i s, t.stored[i]? = some s ∧ h = logItem registry i s := by
  unfold itemsAt at hmem
  split at hmem
  · cases hmem
  · next level hlevel =>
    rcases List.mem_append.mp hmem with hmem | hmem
    · obtain ⟨g, hg, rfl⟩ := List.mem_map.mp hmem
      exact .inl ⟨level, g, hlevel, hg, rfl⟩
    · obtain ⟨i, -, hi⟩ := List.mem_filterMap.mp hmem
      obtain ⟨s, hs, rfl⟩ := Option.map_eq_some_iff.mp hi
      exact .inr ⟨i, s, hs, rfl⟩

theorem mem_flatItems {registry : Registry} {h : Handout} (hmem : h ∈ t.flatItems registry) :
    ∃ i s, t.stored[i]? = some s ∧ h = logItem registry i s := by
  obtain ⟨⟨s, i⟩, hs, rfl⟩ := List.mem_map.mp hmem
  exact ⟨i, s, List.mem_zipIdx_iff_getElem?.mp hs, rfl⟩

theorem mem_argItems {registry : Registry} {i : Nat} {id : String} {l : LogEntry} {h : Handout}
    (hmem : h ∈ argItems registry i id l) :
    ∃ j p, (l.previews registry)[j]? = some p ∧ h = argItem i l (entryId id j) p := by
  obtain ⟨⟨p, j⟩, hp, rfl⟩ := List.mem_map.mp hmem
  exact ⟨j, p, List.mem_zipIdx_iff_getElem?.mp hp, rfl⟩

theorem origin_logItem {i : Nat} {s : FiledEntry} (hs : t.stored[i]? = some s) :
    Origin t e ofGroup (logItem e.registry i s).1.id (logItem e.registry i s).2 := by
  rw [logItem_id]
  exact .entry hs

/-- What a level lists has its way down, if the level is a group's. -/
theorem origin_of_mem_itemsAt (hindexed : t.Indexed) (hg : e.settings.groupByPath)
    (htells : t.Tells ofGroup ofEntry) {path : Option String} (hpath : ∀ p ∈ path, ofGroup p)
    {h : Handout} (hmem : h ∈ t.itemsAt e.registry path) : Origin t e ofGroup h.1.id h.2 := by
  rcases mem_itemsAt hmem with ⟨level, g, hlevel, hgroup, rfl⟩ | ⟨i, s, hs, rfl⟩
  · have hnamed := hindexed.named_levelAt hlevel
    exact .group hg (hnamed.groups htells.segment htells.join hpath hgroup)
  · exact origin_logItem hs

/-- **What an identity may name is named for the way down to it.** -/
theorem Shows.origin (hindexed : t.Indexed) (hplain : t.PlainNames e)
    (htells : e.settings.groupByPath → t.Tells ofGroup ofEntry) {id : String} {n : Node}
    (h : Shows { t with arena := {} } e id n) : Origin t e ofGroup id n := by
  induction h with
  | known h => cases h
  | top hr hp h =>
    obtain ⟨item, hmem, rfl⟩ := mem_of_lastNamed h
    change (item, _) ∈ t.topItems e.registry e.settings at hmem
    unfold topItems at hmem
    split at hmem
    · next hg => exact origin_of_mem_itemsAt hindexed hg (htells hg) (by simp) hmem
    · obtain ⟨i, s, hs, heq⟩ := mem_flatItems hmem
      have horigin : Origin t e ofGroup (logItem e.registry i s).1.id _ := origin_logItem hs
      rwa [← heq] at horigin
  | @child parent id m n _ h ih =>
    obtain ⟨item, hmem, hid⟩ := mem_of_lastNamed h
    change (item, _) ∈ t.handoutsOf e parent m at hmem
    unfold handoutsOf at hmem
    split at hmem
    · next hr =>
      cases m with
      | group path =>
        obtain ⟨-, hpath, hg⟩ := ih.of_group
        rw [openingOf_group] at hmem
        subst hid
        exact origin_of_mem_itemsAt hindexed hg (htells hg)
          (fun _ hp => Option.some.inj hp ▸ hpath) hmem
      | entry index =>
        obtain ⟨s, hs, rfl⟩ := ih.of_entry
        rw [openingOf_entry e.registry _ hs] at hmem
        obtain ⟨j, p, hp, heq⟩ := mem_argItems hmem
        cases heq
        exact hid ▸ .arg hs hp
      | value index p =>
        cases hp : p.handle with
        | none =>
          rw [openingOf_value_of_none t e.registry parent index hp] at hmem
          cases hmem
        | some handle =>
          rw [openingOf_value_of_some t e.registry parent index hp] at hmem
          obtain ⟨q, hq, heq⟩ := List.mem_map.mp hmem
          cases heq
          subst hid
          exact .prop ih (hplain.properties handle q hq) h
    · cases hmem

/-- **Plain names keep identities apart.** -/
theorem PlainNames.unambiguous (hplain : t.PlainNames e) (hfiled : t.Filed) (hindexed : t.Indexed)
    (hcurrent : t.Current e) : t.Unambiguous e := by
  have htells : ∃ ofGroup ofEntry, e.settings.groupByPath → t.Tells ofGroup ofEntry := by
    by_cases hg : e.settings.groupByPath
    · rcases hplain.sources hg with hs | hs
      · exact ⟨_, _, fun _ => tells_of_slash hfiled hs⟩
      · exact ⟨_, _, fun _ => tells_of_no_bracket hfiled hs⟩
    · exact ⟨fun _ => True, fun _ => False, fun h => absurd h hg⟩
  obtain ⟨ofGroup, ofEntry, htells⟩ := htells
  intro id n n' hs hs'
  have horigin := (hs.afresh hcurrent).origin hindexed hplain htells
  have horigin' := (hs'.afresh hcurrent).origin hindexed hplain htells
  rw [horigin.unique hfiled htells horigin' rfl]

end LogTree

/-! ## When identities are kept -/

/-- **Identities are kept exactly when none may name nodes with different children.**  Looking keeps
them in every tree and surroundings where that is so, and in a current tree only there; it is so in
every current tree whose names are plain. -/
theorem LogTree.keepsIdentities_iff (t : LogTree) (e : Surroundings) :
    (t.Unambiguous e → t.KeepsIdentities e) ∧
    (t.Current e → (t.KeepsIdentities e ↔ t.Unambiguous e)) ∧
    ∀ actions : List TreeAction, t = (({} : Browsing).run actions).tree → t.Current e →
      t.PlainNames e → t.Unambiguous e := by
  refine ⟨keepsIdentities_of_unambiguous, fun hcurrent => ?_, fun actions ht hcurrent hplain => ?_⟩
  · exact ⟨unambiguous_of_keepsIdentities hcurrent, keepsIdentities_of_unambiguous⟩
  · subst ht
    exact hplain.unambiguous (Browsing.filed_run actions) (Browsing.indexed_run actions) hcurrent

namespace Browsing

/-- The tree with the logged object, of which nothing has been handed out. -/
def loggedTree : LogTree := (({} : Browsing).run [.load, .add [loggedObject]]).tree

/-- On a page where every property is called `x`, the tree keeps its identities. -/
theorem flatPage_keepsIdentities : loggedTree.KeepsIdentities flatPage := by
  have hproperties (handle : String) :
      flatPage.properties handle true = [{ name := "x", value := { kind := .undefined } }] :=
    List.mergeSort_singleton _
  have hplain : loggedTree.PlainNames flatPage := by
    refine ⟨fun handle p hp => ?_, fun hg => by cases hg⟩
    change p ∈ flatPage.properties handle true at hp
    rw [hproperties, List.mem_singleton] at hp
    subst hp
    decide
  obtain ⟨hkeeps, -, hunambiguous⟩ := LogTree.keepsIdentities_iff loggedTree flatPage
  exact hkeeps (hunambiguous _ rfl (LogTree.current_of_fresh rfl flatPage) hplain)

/-! ## A name that holds the start of another -/

/-- A property that is an object with a handle. -/
def objectAt (name handle : String) : Property :=
  { name, value := { kind := .object, objectId := some handle } }

/-- A page on which the logged object has the properties `a` and `a']['b`, and `a` has a property
`b`: the second one and the one of `a` have one identity. -/
def mixedPage : Surroundings :=
  let descriptor (p : Property) : PropertyDescriptor := { name := p.name, value := some p.value }
  { settings := { groupByPath := false, showEnumerable := true }
    answers := fun handle =>
      let result := match handle with
        | "h" => [objectAt "a" "p", objectAt "a']['b" "q"]
        | "p" => [objectAt "b" "r"]
        | "q" => [objectAt "x" "s"]
        | _ => [objectAt "y" "s"]
      (some { result := result.map descriptor }, some {}) }

theorem loggedTree_handoutsOf (id handle : String) :
    loggedTree.handoutsOf mixedPage id (.value 0 { handle := some handle }) =
      (mixedPage.properties handle true).map
        (LogTree.propertyItem { registry := some {}, fallbackUrl := some "" }
          ⟨id, handle, 0, "", 1⟩) := by
  have hfetch : loggedTree.openingOf {} id (.value 0 { handle := some handle })
      = .fetch ⟨id, handle, 0, "", 1⟩ := LogTree.openingOf_value_of_some loggedTree {} id 0 rfl
  exact LogTree.handoutsOf_of_fetch rfl hfetch

theorem mixedPage_properties :
    mixedPage.properties "h" true = [objectAt "a" "p", objectAt "a']['b" "q"] ∧
    mixedPage.properties "p" true = [objectAt "b" "r"] ∧
    mixedPage.properties "q" true = [objectAt "x" "s"] ∧
    mixedPage.properties "r" true = [objectAt "y" "s"] := by
  refine ⟨?_, ?_, ?_, ?_⟩
  · exact List.mergeSort_of_pairwise (by decide)
  · exact List.mergeSort_singleton _
  · exact List.mergeSort_singleton _
  · exact List.mergeSort_singleton _

/-- The identity of `a']['b` goes over to the property `b` of `a`, which has other children. -/
theorem mixedPage_not_keepsIdentities : ¬ loggedTree.KeepsIdentities mixedPage := by
  intro hkeeps
  obtain ⟨hh, hp, hq, hr⟩ := mixedPage_properties
  have hobject : loggedTree.Shows mixedPage "/a.ts:1:1[0]" (.value 0 { handle := some "h" }) :=
    .top rfl rfl (by decide)
  have ha : loggedTree.Shows mixedPage "/a.ts:1:1[0]['a']" (.value 0 { handle := some "p" }) :=
    .child hobject (by rw [loggedTree_handoutsOf, hh]; decide)
  have hbelow : loggedTree.Shows mixedPage "/a.ts:1:1[0]['a']['b']"
      (.value 0 { handle := some "r" }) :=
    .child ha (by rw [loggedTree_handoutsOf, hp]; decide)
  have hbeside : loggedTree.Shows mixedPage "/a.ts:1:1[0]['a']['b']"
      (.value 0 { handle := some "q" }) :=
    .child hobject (by rw [loggedTree_handoutsOf, hh]; decide)
  have hcurrent : loggedTree.Current mixedPage := LogTree.current_of_fresh rfl mixedPage
  have hsame := LogTree.unambiguous_of_keepsIdentities hcurrent hkeeps _ _ _ hbelow hbeside
  rw [LogTree.childrenOf, LogTree.childrenOf, loggedTree_handoutsOf, loggedTree_handoutsOf, hr,
    hq] at hsame
  exact absurd hsame (by decide)

end Browsing

end ConsoleLens
