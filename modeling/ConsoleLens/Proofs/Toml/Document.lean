import ConsoleLens.Proofs.Toml.Written
import Mathlib.Data.List.Forall2

/-!
# Proofs/Toml/Document — a text of entries, and of tables behind them

An entry is a name with the text that is given to it, and the value that this text spells.  A text
of entries has their values as its members, and the headers behind them collect what follows in an
array of tables:

    name = text …        ⟶   [(name, value), …]
    [[array]] name = …   ⟶   […, (array, [[(name, value), …], …])]

**Entries and tables are read as they were written** (`ofText?_entries`), if no name is given twice.
-/

namespace ConsoleLens.Toml

/-! ## Documents -/

theorem lookup_eq_none {name : String} {members : Members} (h : name ∉ members.map (·.1)) :
    members.lookup name = none :=
  List.lookup_eq_none_iff.mpr fun _ hm => bne_iff_ne.mpr fun heq =>
    h (heq ▸ List.mem_map_of_mem hm)

/-- A member goes behind the others. -/
theorem putPair?_of_fresh {name : String} {members : Members} (h : members.lookup name = none)
    (v : Toml) : putPair? ⟨[], name⟩ v .headed members =
      some (.table .headed (members ++ [(name, v)])) := by
  simp [putPair?, changeAt?, h]

/-- The members with an array of tables behind them, unless there are none. -/
def withTables (name : String) (members : Members) (tables : List Members) : Members :=
  members ++ if tables.isEmpty then [] else [(name, .array true (tables.map (.table .headed)))]

theorem setMember_append {name : String} {members : Members} (h : members.lookup name = none)
    (v w : Toml) : setMember name v (members ++ [(name, w)]) = members ++ [(name, v)] := by
  induction members with
  | nil => simp [setMember]
  | cons m members ih =>
    obtain ⟨n, u⟩ := m
    rw [List.lookup_cons] at h
    split at h
    · cases h
    · next hne =>
      have hne : n ≠ name := fun heq => by simp [heq] at hne
      rw [List.cons_append, setMember, if_neg hne, ih h, List.cons_append]

/-- The line that gives a value to a name. -/
def pairLine (m : String × Toml) : Line := .pair ⟨[], m.1⟩ m.2

/-- The lines of a table of an array: its header, and its pairs. -/
def tableLines (name : String) (table : Members) : List Line :=
  .tables ⟨[], name⟩ :: table.map pairLine

namespace Document

variable {name : String} {members : Members}

theorem add?_pair {n : String} (h : members.lookup n = none) (v : Toml) :
    add? ⟨members, []⟩ (.pair ⟨[], n⟩ v) = some ⟨members ++ [(n, v)], []⟩ := by
  rw [add?, withMembers?, changeAt?, putPair?_of_fresh h]

theorem add?_tables (h : members.lookup name = none) (tables : List Members)
    (current : List String) :
    add? ⟨withTables name members tables, current⟩ (.tables ⟨[], name⟩) =
      some ⟨withTables name members (tables ++ [[]]), [name]⟩ := by
  cases tables with
  | nil => simp [add?, withMembers?, appendTable?, changeAt?, withTables, h, pathOf]
  | cons t tables =>
    simp [add?, withMembers?, appendTable?, changeAt?, withTables, h, pathOf, List.lookup_append,
      setMember_append h]

theorem add?_pair_tables (h : members.lookup name = none) (tables : List Members) {table : Members}
    {n : String} (hn : table.lookup n = none) (v : Toml) :
    add? ⟨withTables name members (tables ++ [table]), [name]⟩ (.pair ⟨[], n⟩ v) =
      some ⟨withTables name members (tables ++ [table ++ [(n, v)]]), [name]⟩ := by
  simp [add?, withMembers?, changeAt?, withTables, h, List.lookup_append, setMember_append h,
    putPair?_of_fresh hn]

/-- **Pairs go behind what a table has**, wherever in the document that is. -/
theorem foldlM_pairLine (embed : Members → Document)
    (hembed : ∀ {t : Members} {n : String} (v : Toml), t.lookup n = none →
      add? (embed t) (.pair ⟨[], n⟩ v) = some (embed (t ++ [(n, v)])))
    {pairs t : Members} (h : ((t ++ pairs).map (·.1)).Nodup) :
    (pairs.map pairLine).foldlM add? (embed t) = some (embed (t ++ pairs)) := by
  induction pairs generalizing t with
  | nil => rw [List.append_nil]; rfl
  | cons m pairs ih =>
    have hfresh : t.lookup m.1 = none := by
      rw [List.map_append, List.nodup_append] at h
      exact lookup_eq_none fun hm => h.2.2 m.1 hm m.1 List.mem_cons_self rfl
    rw [List.append_cons] at h ⊢
    rw [List.map_cons, List.foldlM_cons, pairLine, hembed m.2 hfresh]
    exact ih h

theorem foldlM_tableLines (h : members.lookup name = none) {tables : List Members}
    (htables : ∀ table ∈ tables, (table.map (·.1)).Nodup) (before : List Members)
    (current : List String) :
    ∃ current', (tables.flatMap (tableLines name)).foldlM add?
        ⟨withTables name members before, current⟩ =
      some ⟨withTables name members (before ++ tables), current'⟩ := by
  induction tables generalizing before current with
  | nil => exact ⟨current, by rw [List.append_nil]; rfl⟩
  | cons table tables ih =>
    obtain ⟨htable, htables⟩ := List.forall_mem_cons.mp htables
    obtain ⟨current', hrest⟩ := ih htables (before ++ [table]) [name]
    have hpairs : (table.map pairLine).foldlM add?
        ⟨withTables name members (before ++ [[]]), [name]⟩ =
          some ⟨withTables name members (before ++ [table]), [name]⟩ :=
      foldlM_pairLine (fun t => ⟨withTables name members (before ++ [t]), [name]⟩)
        (fun v hn => add?_pair_tables h before hn v) (t := []) htable
    refine ⟨current', ?_⟩
    rw [List.flatMap_cons, List.foldlM_append, tableLines, List.foldlM_cons, add?_tables h,
      Option.bind_eq_bind, Option.bind_some, hpairs, Option.bind_some, hrest, ← List.append_cons]

/-- **Pairs, and tables of an array behind them, make up the members of a document.** -/
theorem ofLines?_eq {pairs : Members} {tables : List Members} (hpairs : (pairs.map (·.1)).Nodup)
    (htables : ∀ table ∈ tables, (table.map (·.1)).Nodup)
    (hname : tables ≠ [] → name ∉ pairs.map (·.1)) :
    ∃ current, ofLines? (pairs.map pairLine ++ tables.flatMap (tableLines name)) =
      some ⟨withTables name pairs tables, current⟩ := by
  have hfront : (pairs.map pairLine).foldlM add? ({} : Document) = some ⟨pairs, []⟩ :=
    foldlM_pairLine (⟨·, []⟩) (fun v hn => add?_pair hn v) (t := []) hpairs
  rw [ofLines?, List.foldlM_append, hfront, Option.bind_eq_bind, Option.bind_some]
  cases tables with
  | nil => exact ⟨[], by simp [withTables]⟩
  | cons table tables =>
    have hfresh := lookup_eq_none (hname (List.cons_ne_nil table tables))
    have hback := foldlM_tableLines hfresh htables [] []
    simpa [withTables] using hback

end Document

/-! ## Entries -/

/-- **A name with a text that is given to it, and the value that the text spells.** -/
structure Entry where
  name : String
  text : String
  value : Toml
  bare : isBareName name = true
  spells : Spells text value

namespace Entry

/-- The entry as a line. -/
def line (e : Entry) : String := lineOf e.name e.text

/-- The entry as a member. -/
def pair (e : Entry) : String × Toml := (e.name, e.value)

/-- The entry as a member of an object. -/
def member (e : Entry) : String × Json := (e.name, e.value.toJson)

/-- A truth value. -/
def boolean (name : String) (b : Bool) (h : isBareName name = true) : Entry :=
  ⟨name, if b then "true" else "false", .boolean b, h, spells_boolText b⟩

/-- A number that fits its word. -/
def natural (name : String) (n : Nat) (hn : n < Nat.pow 2 128) (h : isBareName name = true) :
    Entry :=
  ⟨name, String.ofList (Digits.decimal n), .integer n, h, spells_decimal hn⟩

/-- A string. -/
def string (name s : String) (h : isBareName name = true) : Entry :=
  ⟨name, quote s, .string s, h, spells_quote s⟩

/-- A list of strings. -/
def strings (name : String) (items : List String) (h : isBareName name = true) : Entry :=
  ⟨name, listOf items, .array false (items.map .string), h, spells_listOf items⟩

end Entry

/-- The lines of a table of entries. -/
def tableText (name : String) (entries : List Entry) : List String :=
  header name :: entries.map Entry.line

theorem reads_entries (entries : List Entry) :
    List.Forall₂ Reads (entries.map Entry.line) ((entries.map Entry.pair).map pairLine) := by
  rw [List.map_map, List.forall₂_map_left_iff, List.forall₂_map_right_iff, List.forall₂_same]
  exact fun e _ => reads_lineOf e.bare e.spells

theorem reads_tables {name : String} (hname : isBareName name = true)
    (tables : List (List Entry)) :
    List.Forall₂ Reads (tables.flatMap (tableText name))
      ((tables.map (·.map Entry.pair)).flatMap (tableLines name)) := by
  induction tables with
  | nil => exact .nil
  | cons t tables ih =>
    exact .cons (reads_header hname) (List.rel_append (reads_entries t) ih)

/-- **A text of entries, and of tables of entries behind them, is read as it was written.** -/
theorem ofText?_entries {name : String} (hname : isBareName name = true) {entries : List Entry}
    {tables : List (List Entry)} (hentries : (entries.map Entry.name).Nodup)
    (htables : ∀ t ∈ tables, (t.map Entry.name).Nodup)
    (hfresh : tables ≠ [] → name ∉ entries.map Entry.name) :
    ofText? (String.join (entries.map Entry.line ++ tables.flatMap (tableText name))) =
      some (.table .headed
        (withTables name (entries.map Entry.pair) (tables.map (·.map Entry.pair)))) := by
  have hnames (t : List Entry) : (t.map Entry.pair).map (·.1) = t.map Entry.name := by
    rw [List.map_map]
    rfl
  have hlines := lines?_join (List.rel_append (reads_entries entries) (reads_tables hname tables))
  have hpairs : ∀ t ∈ tables.map (·.map Entry.pair), (t.map (·.1)).Nodup :=
    List.forall_mem_map.mpr fun t ht => (hnames t).symm ▸ htables t ht
  rw [← hnames] at hentries hfresh
  obtain ⟨current, hdocument⟩ := Document.ofLines?_eq hentries hpairs fun hne =>
    hfresh fun hnil => hne (hnil ▸ rfl)
  rw [ofText?, hlines, Option.bind_some, hdocument, Option.map_some]

/-! ## As JSON -/

theorem itemsToJson_eq (items : List Toml) : itemsToJson items = items.map toJson := by
  induction items with
  | nil => rfl
  | cons v items ih => rw [itemsToJson, ih, List.map_cons]

theorem membersToJson_eq (members : Members) :
    membersToJson members = members.map fun m => (m.1, m.2.toJson) := by
  induction members with
  | nil => rfl
  | cons m members ih => rw [membersToJson, ih, List.map_cons]

namespace Entry

@[simp] theorem member_boolean (name : String) (b : Bool) (h : isBareName name = true) :
    (boolean name b h).member = (name, .bool b) := rfl

@[simp] theorem member_natural (name : String) (n : Nat) (hn : n < Nat.pow 2 128)
    (h : isBareName name = true) : (natural name n hn h).member = (name, .ofNat n) := rfl

@[simp] theorem member_string (name s : String) (h : isBareName name = true) :
    (string name s h).member = (name, .string s) := rfl

@[simp] theorem member_strings (name : String) (items : List String)
    (h : isBareName name = true) :
    (strings name items h).member = (name, Json.ofList .string items) := by
  rw [member, strings, toJson, itemsToJson_eq, List.map_map]
  rfl

end Entry

theorem membersToJson_pairs (entries : List Entry) :
    membersToJson (entries.map Entry.pair) = entries.map Entry.member := by
  rw [membersToJson_eq, List.map_map]
  rfl

theorem toJson_tables (tables : List (List Entry)) :
    (array true ((tables.map (·.map Entry.pair)).map (.table .headed))).toJson =
      Json.ofList (fun t => .object (t.map Entry.member)) tables := by
  rw [toJson, itemsToJson_eq, List.map_map, List.map_map, Json.ofList]
  exact congrArg _ (List.map_congr_left fun t _ => congrArg Json.object (membersToJson_pairs t))

/-- **Entries become members of an object, and the tables behind them a list of objects.** -/
theorem toJson_withTables (name : String) (entries : List Entry) (tables : List (List Entry)) :
    (table .headed (withTables name (entries.map Entry.pair)
      (tables.map (·.map Entry.pair)))).toJson =
        .object (entries.map Entry.member ++ if tables.isEmpty then [] else
          [(name, Json.ofList (fun t => .object (t.map Entry.member)) tables)]) := by
  rw [toJson, withTables, membersToJson_eq, List.map_append, ← membersToJson_eq,
    membersToJson_pairs, ← toJson_tables]
  cases tables with
  | nil => rfl
  | cons t tables => rfl

end ConsoleLens.Toml
