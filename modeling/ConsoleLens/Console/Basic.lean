import ConsoleLens.Editor.Decorator
import ConsoleLens.Tree.Query

/-!
# Console/Basic — from events to tree and decorations

The console records the entries of one navigation, feeds them to the tree and decorates the editor.
A navigation is loaded **when exactly as many loads were counted as there are routes**; until then
the tree waits, unless entries are not grouped.
-/

namespace ConsoleLens

/-- **What the editor is notified of.** -/
inductive Notice where
  | treeChanged
  | update (u : DecorationChange)

/-- The state of the console. -/
structure Console where
  tree : LogTree := {}
  logs : List LogEntry := []
  loaded : Bool := false
  loadCount : Nat := 0
  decorator : Decorator

/-- What an operation comes to: the state after it and what the editor is notified of, in order. -/
abbrev Reaction := Console × List Notice

namespace Console

/-- The console of a workspace. -/
def ofWorkspace (workspace : DocumentPath) : Console := { decorator := { workspace } }

/-- Decorates the document in front with entries. -/
def decorate (c : Console) (registry : Registry) (settings : Settings)
    (entries : List LogEntry) : Reaction :=
  let (decorator, updates) := c.decorator.decorate registry settings entries
  ({ c with decorator }, updates.map .update)

/-- Begins to serve the tree. -/
def start (c : Console) : Console := { c with tree := c.tree.serve true }

/-- **Drops everything and stops serving the tree.** -/
def stop (c : Console) : Reaction :=
  ({ c with
      logs := []
      loaded := false
      decorator := c.decorator.reset
      tree := c.tree.clear.serve false },
    [.treeChanged, .update (.clear none)])

/-- **Records an entry**, missing when its source is excluded.  It is decorated at once when the
navigation is loaded or entries are not grouped. -/
def log? (c : Console) (registry : Registry) (settings : Settings) (e : LogEntry) :
    Option Reaction :=
  if settings.excludes e.originalPosition.source then none
  else
    let c := { c with logs := c.logs ++ [e] }
    let (c, updates) :=
      if c.loaded || !settings.groupByPath then c.decorate registry settings [e] else (c, [])
    let changed := if c.tree.showsNew then [Notice.treeChanged] else []
    some ({ c with tree := c.tree.add [e] }, changed ++ updates)

/-- **Records the entry of an event**, missing when it cannot be attributed or is excluded; fails,
before anything is recorded, when there is no entry. -/
def ingest? (c : Console) (registry : Registry) (settings : Settings) (event : ConsoleEvent) :
    Except Overflow (Option Reaction) := do
  match ← LogEntry.ofEvent? event registry with
  | none => return none
  | some e => return if e.isShowable then c.log? registry settings e else none

/-- **A navigation has started**: everything is forgotten, and grouped entries wait for the load. -/
def update (c : Console) (settings : Settings) : Reaction :=
  ({ c with
      logs := []
      loaded := false
      loadCount := 0
      decorator := c.decorator.reset
      tree := if settings.groupByPath then c.tree.reset else c.tree.clear },
    [.treeChanged, .update (.clear none)])

/-- **A route has loaded**; the last one that is needed loads the navigation. -/
def load (c : Console) (registry : Registry) (settings : Settings) : Reaction :=
  let c := { c with loadCount := c.loadCount + 1 }
  if c.loadCount ≠ settings.loadsNeeded then (c, [])
  else
    let (c, updates) := { c with loaded := true }.decorate registry settings c.logs
    ({ c with tree := c.tree.load }, .treeChanged :: updates)

/-- Another document is in front. -/
def activate (c : Console) (registry : Registry) (settings : Settings)
    (document : Option FrontDocument) : Reaction :=
  { c with decorator := c.decorator.bringToFront document }.decorate registry settings c.logs

/-- A document was edited or reverted. -/
def documentChanged (c : Console) (registry : Registry) (settings : Settings)
    (path : DocumentPath) (dirty : Bool) : Reaction :=
  let c := { c with decorator := c.decorator.markDirty path dirty }
  if c.loaded then c.decorate registry settings c.logs else (c, [])

/-- A document is about to be saved, after which the page is rebuilt. -/
def willSave (c : Console) : Console := { c with loaded := false }

end Console

end ConsoleLens
