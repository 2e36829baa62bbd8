import ConsoleLens.Json.Record
import ConsoleLens.Text.Split

/-!
# Settings/Basic — what the user may choose

Every setting has a default.  Settings are read afresh by each operation, so a change takes effect
on the next one.
-/

namespace ConsoleLens

open Json

/-- A page that the browser keeps open, with the events dispatched on it. -/
structure Route where
  route : String
  events : List String := []
  deriving DecidableEq

/-- **The user's settings.** -/
structure Settings where
  showEnumerable : Bool := false
  groupByPath : Bool := true
  excludedPaths : List String := ["node_modules"]
  port : Option UInt16 := none
  debug : Bool := false
  pathToChrome : Option String := none
  textColor : String := "gray"
  routes : List Route := [{ route := "/" }]
  ignoredRequestTypes : List String := ["image", "font"]
  deriving DecidableEq, Inhabited

namespace Route

/-- The fields of a route. -/
def fields : List String := ["route", "events"]

/-- Reads a route. -/
def ofJson? (j : Json) : Option Route := do
  let r ← j.record? fields
  return {
    route := ← r.required "route" text?
    events := ← r.orElse "events" [] (list? text?) }

/-- Writes a route. -/
def toJson (r : Route) : Json :=
  .object [("route", .string r.route), ("events", ofList .string r.events)]

end Route

namespace Settings

/-- The largest port. -/
def maxPort : Nat := 65535

/-- Reads a port. -/
def port? (j : Json) : Option UInt16 := (nat? maxPort j).map UInt16.ofNat

/-- The fields of the settings. -/
def fields : List String :=
  ["show_enumerable", "group_by_path", "excluded_path_prefixes", "port", "debug", "path_to_chrome",
    "text_color", "routes", "ignore_request_types"]

/-- **Reads settings**; what is missing has its default. -/
def ofJson? (j : Json) : Option Settings := do
  let r ← j.record? fields
  let d : Settings := {}
  return {
    showEnumerable := ← r.orElse "show_enumerable" d.showEnumerable bool?
    groupByPath := ← r.orElse "group_by_path" d.groupByPath bool?
    excludedPaths := ← r.orElse "excluded_path_prefixes" d.excludedPaths (list? text?)
    port := ← r.orElse "port" d.port (nullable? port?)
    debug := ← r.orElse "debug" d.debug bool?
    pathToChrome := ← r.orElse "path_to_chrome" d.pathToChrome (nullable? text?)
    textColor := ← r.orElse "text_color" d.textColor text?
    routes := ← r.orElse "routes" d.routes (list? Route.ofJson?)
    ignoredRequestTypes := ← r.orElse "ignore_request_types" d.ignoredRequestTypes (list? text?) }

/-- **Writes settings**, all of them. -/
def toJson (s : Settings) : Json :=
  .object
    [("show_enumerable", .bool s.showEnumerable), ("group_by_path", .bool s.groupByPath),
      ("excluded_path_prefixes", ofList .string s.excludedPaths),
      ("port", ofOption (fun p => Json.ofNat p.toNat) s.port), ("debug", .bool s.debug),
      ("path_to_chrome", ofOption .string s.pathToChrome), ("text_color", .string s.textColor),
      ("routes", ofList Route.toJson s.routes),
      ("ignore_request_types", ofList .string s.ignoredRequestTypes)]

/-- How many routes have to load: one at least. -/
def loadsNeeded (s : Settings) : Nat := max s.routes.length 1

/-- **Whether the logs of a source are dropped**: it starts with an excluded path, slashes in front
of either not counting. -/
def excludes (s : Settings) (source : String) : Bool :=
  let source := Text.trimSlashes source.toList
  s.excludedPaths.any fun path =>
    let path := Text.trimSlashes path.toList
    !path.isEmpty && path.isPrefixOf source

/-- The colour of decorations. -/
def shownColor (s : Settings) : String := if s.debug then "red" else s.textColor

end Settings

/-- Settings that change while others watch, with the number of changes so far. -/
structure LiveSettings where
  current : Settings := {}
  version : Nat := 0

/-- The settings replaced. -/
def LiveSettings.update (s : LiveSettings) (settings : Settings) : LiveSettings :=
  ⟨settings, s.version + 1⟩

end ConsoleLens
