import ConsoleLens.Proofs.Json.Fields
import ConsoleLens.Proofs.Toml.Document
import ConsoleLens.Settings.File

/-!
# Proofs/Settings/File — settings saved, and loaded again

The text of the settings is one of entries (`toToml_eq`): those that may be missing have no line if
they are, and the routes are tables behind all others, **unless there are none**, for then a line
among the others says so, or they would be read as the default.  Entries are read as they were
written, and settings are read from their values in any order (`ofJson?_written`), so **settings
that were saved are loaded as they were** (`load_save`).
-/

namespace ConsoleLens

open Json
open Toml (Entry)

/-! ## Values -/

/-- What is written for a route is read as it. -/
theorem Route.returns (r : Route) : Returns .null Route.ofJson? Route.toJson r :=
  returns_record (fun _ => rfl) (by decide) rfl rfl <|
    (returns_text .null r.route).required.cons <|
    (returns_list fun e _ => returns_text .null e).orElse.cons .nil

namespace Settings

theorem returns_port (p : UInt16) : Returns .null port? (fun p => Json.ofNat p.toNat) p := by
  have hp : p.toNat ≤ maxPort := Nat.le_of_lt_succ p.toNat_lt
  refine ⟨?_, passes_ofNat .null p.toNat⟩
  rw [port?, nat?_ofNat hp, Option.map_some, UInt16.ofNat_toNat]

/-- The values of the settings in front of the routes. -/
def frontValues (s : Settings) : List (String × Option Json) :=
  [("show_enumerable", some (.bool s.showEnumerable)),
    ("group_by_path", some (.bool s.groupByPath)),
    ("excluded_path_prefixes", some (ofList .string s.excludedPaths)),
    ("port", s.port.map fun p => Json.ofNat p.toNat), ("debug", some (.bool s.debug)),
    ("path_to_chrome", s.pathToChrome.map .string), ("text_color", some (.string s.textColor))]

/-- The values of the settings in the order in which they are declared. -/
def values (s : Settings) : List (String × Option Json) :=
  s.frontValues ++ [("routes", some (ofList Route.toJson s.routes)),
    ("ignore_request_types", some (ofList .string s.ignoredRequestTypes))]

/-- **Settings are read from their values**, in whatever order these are written. -/
theorem ofJson?_written (s : Settings) {members : List (String × Json)}
    (hmembers : members.Perm (written s.values)) : ofJson? (.object members) = some s := by
  have htexts (items : List String) : Returns .null (list? text?) (ofList .string) items :=
    returns_list fun e _ => returns_text .null e
  exact read_written (fun _ => rfl) (by decide) hmembers rfl <|
    (returns_bool .null s.showEnumerable).orElse.cons <|
    (returns_bool .null s.groupByPath).orElse.cons <| (htexts s.excludedPaths).orElse.cons <|
    (fieldReturns_optional rfl fun p _ => returns_port p).cons <|
    (returns_bool .null s.debug).orElse.cons <| (fieldReturns_text .null s.pathToChrome).cons <|
    (returns_text .null s.textColor).orElse.cons <|
    (returns_list fun r _ => Route.returns r).orElse.cons <|
    (htexts s.ignoredRequestTypes).orElse.cons .nil

end Settings

/-! ## Entries -/

/-- The entries of a route. -/
def Route.entries (r : Route) : List Entry :=
  [.string "route" r.route (by decide), .strings "events" r.events (by decide)]

theorem Route.toJson_eq (r : Route) : r.toJson = .object (r.entries.map Entry.member) := by
  simp [Route.toJson, Route.entries]

namespace Settings

/-- The entry of a port. -/
def portEntry (p : UInt16) : Entry :=
  .natural "port" p.toNat (Nat.lt_trans p.toNat_lt (by decide)) (by decide)

/-- The entries in front of the routes. -/
def front (s : Settings) : List Entry :=
  List.filterMap id
    [some (.boolean "show_enumerable" s.showEnumerable (by decide)),
      some (.boolean "group_by_path" s.groupByPath (by decide)),
      some (.strings "excluded_path_prefixes" s.excludedPaths (by decide)), s.port.map portEntry,
      some (.boolean "debug" s.debug (by decide)),
      s.pathToChrome.map fun p => .string "path_to_chrome" p (by decide),
      some (.string "text_color" s.textColor (by decide))]

/-- The entries of the settings, and one for the routes if there are none. -/
def entries (s : Settings) : List Entry :=
  s.front ++ (if s.routes.isEmpty then [.strings "routes" [] (by decide)] else []) ++
    [.strings "ignore_request_types" s.ignoredRequestTypes (by decide)]

theorem routeText_eq (r : Route) :
    routeText r = String.join (Toml.tableText "routes" r.entries) := by
  rw [← String.toList_inj]
  simp [routeText, Toml.tableText, Toml.header, Route.entries, Entry.line, Entry.string,
    Entry.strings]

/-- **The text of the settings is one of entries, and of tables behind them.** -/
theorem toToml_eq (s : Settings) :
    s.toToml = String.join (s.entries.map Entry.line ++
      (s.routes.map Route.entries).flatMap (Toml.tableText "routes")) := by
  have hroutes : (String.join (s.routes.map routeText)).toList =
      ((s.routes.map Route.entries).flatMap (Toml.tableText "routes")).flatMap String.toList := by
    simp only [String.toList_join, List.flatMap_map, List.flatMap_assoc, routeText_eq]
  rw [← String.toList_inj, String.toList_join, List.flatMap_append, ← hroutes]
  obtain ⟨_, _, _, port, _, path, _, routes, _⟩ := s
  cases port <;> cases path <;> cases routes <;>
    simp [toToml, entries, front, portEntry, Entry.line, Entry.boolean, Entry.natural,
      Entry.string, Entry.strings, maybeLine, boolText, Toml.listOf]

/-- The names of the entries are those of the fields, some left out. -/
theorem names_front_sublist (s : Settings) : (s.front.map Entry.name).Sublist (fields.take 7) := by
  obtain ⟨_, _, _, port, _, path, _, _, _⟩ := s
  cases port <;> cases path <;> exact of_decide_eq_true rfl

theorem names_entries (s : Settings) : s.entries.map Entry.name =
    s.front.map Entry.name ++ (if s.routes.isEmpty then ["routes"] else []) ++
      ["ignore_request_types"] := by
  rw [entries, List.map_append, List.map_append]
  cases s.routes.isEmpty <;> rfl

theorem nodup_names (s : Settings) : (s.entries.map Entry.name).Nodup := by
  have hroutes : (if s.routes.isEmpty then ["routes"] else []).Sublist ["routes"] := by
    cases s.routes.isEmpty <;> decide
  have hfields : (s.entries.map Entry.name).Sublist fields :=
    names_entries s ▸ ((names_front_sublist s).append hroutes).append (.refl _)
  exact hfields.nodup (by decide)

theorem routes_notMem_names {s : Settings} (h : s.routes.isEmpty = false) :
    "routes" ∉ s.entries.map Entry.name := by
  have hfront : "routes" ∉ s.front.map Entry.name := fun hmem =>
    absurd ((names_front_sublist s).subset hmem) (by decide)
  rw [names_entries, h]
  simpa using hfront

/-- The members that the text of the settings has. -/
def members (s : Settings) : Toml.Members :=
  Toml.withTables "routes" (s.entries.map Entry.pair)
    ((s.routes.map Route.entries).map (·.map Entry.pair))

theorem ofText?_toToml (s : Settings) :
    Toml.ofText? s.toToml = some (.table .headed s.members) := by
  have hroute (r : Route) : (r.entries.map Entry.name).Nodup := by
    have hnames : r.entries.map Entry.name = Route.fields := rfl
    rw [hnames]
    decide
  rw [toToml_eq]
  exact Toml.ofText?_entries (by decide) (nodup_names s)
    (List.forall_mem_map.mpr fun r _ => hroute r) fun h => routes_notMem_names (by simpa using h)

theorem member_front (s : Settings) : s.front.map Entry.member = written s.frontValues := by
  obtain ⟨_, _, _, port, _, path, _, _, _⟩ := s
  cases port <;> cases path <;> simp [front, portEntry, frontValues, written, member]

/-- **The members have the values of the settings**, the routes in their place or at the end. -/
theorem toJson_members (s : Settings) : ∃ members,
    (Toml.table .headed s.members).toJson = .object members ∧ members.Perm (written s.values) := by
  refine ⟨_, Toml.toJson_withTables .., ?_⟩
  have hvalues : written s.values = written s.frontValues ++
      [("routes", ofList Route.toJson s.routes),
        ("ignore_request_types", ofList .string s.ignoredRequestTypes)] := by
    rw [values, written, List.flatMap_append]
    rfl
  rw [hvalues, entries, List.map_append, List.map_append, member_front]
  cases s.routes with
  | nil => simp [ofList]
  | cons r rs =>
    have hroutes : ofList (fun t => .object (t.map Entry.member)) ((r :: rs).map Route.entries) =
        ofList Route.toJson (r :: rs) := by
      simp [ofList, Route.toJson_eq]
    rw [List.append_assoc, List.append_assoc, hroutes]
    exact .append_left _ (Toml.Entry.member_strings .. ▸ .swap ..)

/-- No list stands for a route. -/
theorem trimmed_members (s : Settings) : s.members.map trimmedMember = s.members := by
  have hfront : (s.front.map Entry.pair).map trimmedMember = s.front.map Entry.pair := by
    obtain ⟨_, _, _, port, _, path, _, _, _⟩ := s
    cases port <;> cases path <;> simp [front, portEntry, Entry.pair, Entry.boolean, Entry.natural,
      Entry.string, Entry.strings, trimmedMember]
  rw [members, Toml.withTables, entries]
  simp only [List.map_append, hfront]
  cases s.routes with
  | nil => rfl
  | cons r rs => simp [Entry.pair, Entry.strings, trimmedMember, Route.trimmed]

/-- **Settings written as a text are read as they were.** -/
theorem ofToml?_toToml (s : Settings) : ofToml? s.toToml = some s := by
  obtain ⟨members, hmembers, hwritten⟩ := toJson_members s
  simp only [ofToml?, ofText?_toToml, trimmed_members, hmembers]
  exact ofJson?_written s hwritten

end Settings

/-! ## Places -/

theorem fromUTF8?_toUTF8 (s : String) : String.fromUTF8? s.toUTF8 = some s :=
  dif_pos s.isValidUTF8

namespace SettingsPlace

/-- A file of settings is loaded as these, and stays. -/
theorem load_file (s : Settings) :
    load (.file s.toToml.toUTF8) = .ok (s, .file s.toToml.toUTF8) := by
  simp only [load, fromUTF8?_toUTF8, s.ofToml?_toToml]

/-- **Settings that were saved are loaded as they were**, and a place that takes no file says so. -/
theorem load_save (s : Settings) (place : SettingsPlace) :
    (∃ saved, place.save s = .ok saved ∧ saved.load = .ok (s, saved)) ∨
      place.save s = .error .unreachable ∧ (place = .missing ∨ place = .directory) := by
  cases place with
  | vacant => exact .inl ⟨_, rfl, load_file s⟩
  | file content => exact .inl ⟨_, rfl, load_file s⟩
  | missing => exact .inr ⟨rfl, .inl rfl⟩
  | directory => exact .inr ⟨rfl, .inr rfl⟩

end SettingsPlace

end ConsoleLens
