import ConsoleLens.Console.Basic
import ConsoleLens.Page.Request
import ConsoleLens.Page.Runtime

/-!
# Page/Session — a page, its console and its editor, step by step

A session puts the parts together: a page that reports events and answers queries, the maps of its
scripts, the console that records them, and the settings, which may change between any two steps.
Queries that wait and watches on the settings are kept by name until they end.  **A step reports
what it came to, what the editor was notified of, and the state that the editor sees.**
-/

namespace ConsoleLens

/-- A watch on settings: the version it saw last, and the version of the settings it watches when
they are other ones that nobody can change any more. -/
structure Watch where
  seen : Nat
  closedAt : Option Nat := none

/-- **The state of a session.** -/
structure Session where
  settings : LiveSettings := {}
  registry : Registry := {}
  console : Console
  runtime : Runtime := {}
  network : Table String Response := {}
  fetches : Nat := 0
  waiting : List (String × Waiting) := []
  watches : List (String × Watch) := []

/-- What the editor can see of the console. -/
structure Status where
  loaded : Bool
  logs : Nat
  phase : Phase
  shown : Nat
  pending : Nat
  deriving DecidableEq

/-- One thing that happens. -/
inductive Step where
  | start
  | stop
  | update
  | load
  | willSave
  | ingest (event : Json)
  | log (entry : LogEntry)
  | activate (document : Option FrontDocument)
  | document (path : DocumentPath) (dirty : Bool)
  | logs
  | treeAdd (entries : List LogEntry)
  | treeLoad
  | treeReset
  | treeClear
  | treeRefresh
  | treeReady (ready : Bool)
  | treeEntries
  | children (parent : Option String)
  | walk (parent : Option String) (depth : Nat)
  | begin (id : String) (parent : Option String)
  | poll (id : String)
  | gate (opened : Bool)
  | fail (handle : String) (own : Bool)
  | unfail (handle : String) (own : Bool)
  | queries
  | changeSettings (settings : Settings)
  | showSettings
  | watch (id : String) (changes : Option Nat)
  | pollWatch (id : String)
  | addMap (url data : String)
  | addScript (id url : String)
  | containsMap (url : String)
  | request (url type : String)
  | fetchMap (url : String)

/-- A walk through the tree: the items with the walks below them, or a query that waits. -/
inductive Walk where
  | pending
  | items (items : List (Item × Option Walk))

/-- What a step comes to. -/
inductive Outcome where
  | nothing
  | flag (b : Bool)
  | maybeFlag (b : Option Bool)
  | count (n : Nat)
  | malformedEvent
  | overflow
  | entries (entries : List LogEntry)
  | keys (keys : List String)
  | walked (walk : Walk)
  | pending
  | done
  | unknown
  | settings (s : Settings)
  | decision (d : RequestVerdict) (fetches : Nat)

/-- What a step reports. -/
structure Report where
  outcome : Outcome
  notices : List Notice
  status : Status

namespace Session

/-- What the editor can see. -/
def status (s : Session) : Status :=
  { loaded := s.console.loaded
    logs := s.console.logs.length
    phase := s.console.tree.phase
    shown := s.console.tree.stored.length
    pending := s.console.tree.pending.length }

/-- The session with another tree. -/
def withTree (s : Session) (t : LogTree) : Session :=
  { s with console := { s.console with tree := t } }

/-- What the network answers. -/
def fetch (s : Session) : Network := s.network.get?

/-! ## Queries -/

/-- Items without anything below them. -/
def flatWalk (items : List Item) : Walk := .items (items.map fun i => (i, none))

/-- **Goes on with a query that waits**: it ends with its items or waits on. -/
def resume (s : Session) (w : Waiting) : Except Waiting (List Item) × Session :=
  match w with
  | .load settings =>
    match s.console.tree.root? s.registry settings with
    | none => (.error w, s)
    | some (items, t) => (.ok items, s.withTree t)
  | .properties settings f =>
    if s.runtime.isOpen then
      let properties := s.runtime.properties f.handle settings.showEnumerable
      let (items, t) := s.console.tree.receive s.registry f properties
      (.ok items, s.withTree t)
    else (.error w, s)

/-- **Makes a query** and follows it as far as it goes at once. -/
def ask (s : Session) (parent : Option String) : Except Waiting (List Item) × Session :=
  let (answer, t) := s.console.tree.query s.registry s.settings.current parent
  let s := s.withTree t
  match answer with
  | .items items => (.ok items, s)
  | .waiting (.load settings) => (.error (.load settings), s)
  | .waiting (.properties settings f) =>
    { s with runtime := s.runtime.countQueries }.resume (.properties settings f)

/-- Walks through the children of a node and, `depth` levels down, through those of each child that
has any. -/
def walkFrom (s : Session) (parent : Option String) : Nat → Walk × Session
  | 0 =>
    match s.ask parent with
    | (.error _, s) => (.pending, s)
    | (.ok items, s) => (flatWalk items, s)
  | depth + 1 =>
    match s.ask parent with
    | (.error _, s) => (.pending, s)
    | (.ok items, s) =>
      let (walked, s) := items.foldl
        (fun (done, s) item =>
          if item.folding = .leaf then ((item, none) :: done, s)
          else
            let (below, s) := s.walkFrom (some item.id) depth
            ((item, some below) :: done, s))
        ([], s)
      (.items walked.reverse, s)

/-- Entries of a session without those of a name. -/
def forgetName (id : String) (named : List (String × α)) : List (String × α) :=
  named.filter (·.1 ≠ id)

/-- The outcome of a query that is made once. -/
def once (r : Except Waiting (List Item) × Session) : Outcome × Session :=
  match r with
  | (.ok items, s) => (.walked (flatWalk items), s)
  | (.error _, s) => (.pending, s)

/-- Makes a query and keeps it under a name if it waits. -/
def begin (s : Session) (id : String) (parent : Option String) : Outcome × Session :=
  match s.ask parent with
  | (.ok items, s) => (.walked (flatWalk items), s)
  | (.error w, s) => (.pending, { s with waiting := (id, w) :: forgetName id s.waiting })

/-- Goes on with the query of a name, which is forgotten once it has ended. -/
def poll (s : Session) (id : String) : Outcome × Session :=
  match s.waiting.lookup id with
  | none => (.unknown, s)
  | some w =>
    match s.resume w with
    | (.ok items, s) =>
      (.walked (flatWalk items), { s with waiting := forgetName id s.waiting })
    | (.error _, s) => (.pending, s)

/-! ## Watches -/

/-- **Polls a watch**: however many changes it has not seen, the tree is shown afresh once. -/
def pollWatch (s : Session) (id : String) : Outcome × List Notice × Session :=
  match s.watches.lookup id with
  | none => (.unknown, [], s)
  | some w =>
    let version := w.closedAt.getD s.settings.version
    let notices := if version ≠ w.seen then [Notice.treeChanged] else []
    let others := forgetName id s.watches
    if w.closedAt.isSome then (.done, notices, { s with watches := others })
    else (.pending, notices, { s with watches := (id, { w with seen := version }) :: others })

/-! ## Steps -/

/-- The session after a reaction of its console. -/
def react (s : Session) (r : Reaction) : List Notice × Session :=
  (r.2, { s with console := r.1 })

/-- The session after a change of its tree that the editor is notified of. -/
def changeTree (s : Session) (t : LogTree) : Outcome × List Notice × Session :=
  (.nothing, [.treeChanged], s.withTree t)

/-- The session after a reaction that has no outcome. -/
def silently (s : Session) (r : Reaction) : Outcome × List Notice × Session :=
  (.nothing, s.react r)

/-- The session after a recording that may not have happened. -/
def recording (s : Session) (r : Option Reaction) : Outcome × List Notice × Session :=
  match r with
  | none => (.flag false, [], s)
  | some r => (.flag true, s.react r)

/-- What a step does: its outcome, the notices and the session after it. -/
def run (s : Session) (step : Step) : Outcome × List Notice × Session :=
  let settings := s.settings.current
  let registry := s.registry
  let c := s.console
  let t := c.tree
  match step with
  | .start => (.nothing, [], { s with console := c.start })
  | .stop => s.silently c.stop
  | .update => s.silently (c.update settings)
  | .load => s.silently (c.load registry settings)
  | .willSave => (.nothing, [], { s with console := c.willSave })
  | .ingest event =>
    match ConsoleEvent.ofJson? event with
    | none => (.malformedEvent, [], s)
    | some event =>
      match c.ingest? registry settings event with
      | .error .pastLargest => (.overflow, [], s)
      | .ok recorded => s.recording recorded
  | .log entry => s.recording (c.log? registry settings entry)
  | .activate document => s.silently (c.activate registry settings document)
  | .document path dirty => s.silently (c.documentChanged registry settings path dirty)
  | .logs => (.entries c.logs, [], s)
  | .treeAdd entries =>
    (.nothing, if t.showsNew then [.treeChanged] else [], s.withTree (t.add entries))
  | .treeLoad => s.changeTree t.load
  | .treeReset => s.changeTree t.reset
  | .treeClear => s.changeTree t.clear
  | .treeRefresh => s.changeTree t
  | .treeReady ready => (.nothing, [], s.withTree (t.serve ready))
  | .treeEntries => (.keys (t.entries.map (·.key)), [], s)
  | .children parent =>
    let (outcome, s) := once (s.ask parent)
    (outcome, [], s)
  | .walk parent depth =>
    let (walk, s) := s.walkFrom parent (depth - 1)
    (.walked walk, [], s)
  | .begin id parent =>
    let (outcome, s) := s.begin id parent
    (outcome, [], s)
  | .poll id =>
    let (outcome, s) := s.poll id
    (outcome, [], s)
  | .gate opened =>
    (.maybeFlag s.runtime.gate, [],
      { s with runtime := { s.runtime with gate := s.runtime.gate.map fun _ => opened } })
  | .fail handle own =>
    let (changed, runtime) := s.runtime.fail handle own
    (.flag changed, [], { s with runtime })
  | .unfail handle own =>
    let (changed, runtime) := s.runtime.unfail handle own
    (.flag changed, [], { s with runtime })
  | .queries => (.count s.runtime.queries, [], s)
  | .changeSettings settings =>
    let settings := s.settings.update settings
    (.count settings.version, [], { s with settings })
  | .showSettings => (.settings settings, [], s)
  | .watch id changes =>
    let seen := if changes.isSome then 0 else s.settings.version
    let watch : Watch := { seen, closedAt := changes }
    (.nothing, [], { s with watches := (id, watch) :: forgetName id s.watches })
  | .pollWatch id => s.pollWatch id
  | .addMap url data =>
    let (stored, registry) := registry.addMap url data
    (.flag stored, [], { s with registry })
  | .addScript id url =>
    (.nothing, [], { s with registry := registry.addScript id url })
  | .containsMap url => (.flag (registry.containsMap url), [], s)
  | .request url type =>
    let (decision, registry) := Request.handle settings registry s.fetch url type
    let fetches := if Request.fetches settings type then s.fetches + 1 else s.fetches
    (.decision decision fetches, [], { s with registry, fetches })
  | .fetchMap url =>
    let (stored, registry) := Request.fetchMap registry s.fetch url
    (.flag stored, [], { s with registry, fetches := s.fetches + 1 })

/-- **One step of a session.**  The editor sees the state after it. -/
def step (s : Session) (st : Step) : Report × Session :=
  let (outcome, notices, s) := s.run st
  ({ outcome, notices, status := s.status }, s)

/-- The reports of steps, one after the other. -/
def runAll (s : Session) : List Step → List Report
  | [] => []
  | st :: rest =>
    let (report, s) := s.step st
    report :: s.runAll rest

end Session

end ConsoleLens
