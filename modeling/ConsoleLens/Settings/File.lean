import ConsoleLens.Settings.Basic
import ConsoleLens.Toml.Document
import ConsoleLens.Toml.Printer

/-!
# Settings/File — the settings in a configuration text

A setting that the text does not name has its default, and names that are no settings do not count.
**A place without a file gets one with the defaults.**
-/

namespace ConsoleLens

/-! ## Reading -/

/-- Why settings cannot be loaded. -/
inductive SettingsFault where
  /-- The text holds no settings. -/
  | malformed
  /-- The place cannot be read or written, or holds no text. -/
  | unreachable

/-- What is said of a text that holds no settings. -/
def SettingsFault.malformedMessage : String := "Failed to parse config file as TOML"

namespace Route

/-- Of a list that stands for a route, only the first items count. -/
def trimmed : Toml → Toml
  | .array growing items => .array growing (items.take fields.length)
  | v => v

end Route

namespace Settings

/-- The value of a setting; of routes that are lists the first items count. -/
def trimmedMember : String × Toml → String × Toml
  | ("routes", .array growing items) => ("routes", .array growing (items.map Route.trimmed))
  | m => m

/-- **Reads settings from a text.** -/
def ofToml? (text : String) : Option Settings :=
  match Toml.ofText? text with
  | some (.table kind members) => ofJson? (Toml.table kind (members.map trimmedMember)).toJson
  | _ => none

/-! ## Writing -/

/-- The lines of a route. -/
def routeText (r : Route) : String :=
  "\n[[routes]]\n" ++ Toml.lineOf "route" (Toml.quote r.route) ++
    Toml.lineOf "events" (Toml.listOf r.events)

/-- A line for a setting that may be missing. -/
def maybeLine (name : String) (value : Option String) : String :=
  value.elim "" (Toml.lineOf name)

/-- The text of a truth value. -/
def boolText (b : Bool) : String := if b then "true" else "false"

/-- **Writes settings as a text**: the routes last, unless there are none. -/
def toToml (s : Settings) : String :=
  Toml.lineOf "show_enumerable" (boolText s.showEnumerable) ++
    Toml.lineOf "group_by_path" (boolText s.groupByPath) ++
    Toml.lineOf "excluded_path_prefixes" (Toml.listOf s.excludedPaths) ++
    maybeLine "port" (s.port.map fun p => String.ofList (Digits.decimal p.toNat)) ++
    Toml.lineOf "debug" (boolText s.debug) ++
    maybeLine "path_to_chrome" (s.pathToChrome.map Toml.quote) ++
    Toml.lineOf "text_color" (Toml.quote s.textColor) ++
    (if s.routes.isEmpty then Toml.lineOf "routes" "[]" else "") ++
    Toml.lineOf "ignore_request_types" (Toml.listOf s.ignoredRequestTypes) ++
    String.join (s.routes.map routeText)

end Settings

/-! ## Places -/

/-- What a place for settings holds. -/
inductive SettingsPlace where
  /-- Nothing, in a directory that exists. -/
  | vacant
  /-- Nothing, and no file can be put there. -/
  | missing
  /-- A directory. -/
  | directory
  /-- A file. -/
  | file (content : ByteArray)

namespace SettingsPlace

/-- The place with the settings saved there. -/
def save (s : Settings) : SettingsPlace → Except SettingsFault SettingsPlace
  | .vacant => .ok (.file s.toToml.toUTF8)
  | .file _ => .ok (.file s.toToml.toUTF8)
  | .missing => .error .unreachable
  | .directory => .error .unreachable

/-- **The settings of a place, and the place afterwards.** -/
def load : SettingsPlace → Except SettingsFault (Settings × SettingsPlace)
  | .file content =>
    match String.fromUTF8? content with
    | none => .error .unreachable
    | some text =>
      match Settings.ofToml? text with
      | none => .error .malformed
      | some s => .ok (s, .file content)
  | .directory => .error .unreachable
  | place => (place.save {}).map fun place => ({}, place)

/-- The text of the file at a place. -/
def text? : SettingsPlace → Option String
  | .file content => String.fromUTF8? content
  | _ => none

end SettingsPlace

end ConsoleLens
