import ConsoleLens.Property.Basic
import ConsoleLens.Settings.Basic
import ConsoleLens.Tree.Basic
import ConsoleLens.Tree.Item

/-!
# Tree/Query — the children of a node

Children are listed at once, or the query waits: the top level until the page has loaded, a value
until the page has answered for its properties.  A waiting query is data, so whatever happens in
between happens to the tree and not to the query.  **Properties that arrive for a node of an earlier
tree are dropped.**
-/

namespace ConsoleLens

/-- An item with the node that its identity will name. -/
abbrev Handout := Item × Node

/-- Properties to be asked for, with what it takes to show them. -/
structure Fetch where
  parent : String
  handle : String
  entry : Nat
  generatedUrl : String
  generation : Nat
  deriving DecidableEq

/-- What opening a node comes to. -/
inductive Opening where
  | ready (children : List Handout)
  | fetch (f : Fetch)

/-- What a query waits for, with the settings that were in force when it was made. -/
inductive Waiting where
  | load (settings : Settings)
  | properties (settings : Settings) (fetch : Fetch)

/-- What a query comes to at first. -/
inductive Answer where
  | items (items : List Item)
  | waiting (w : Waiting)

namespace LogTree

/-! ## Items -/

/-- The item of a group. -/
def branchItem (g : PathBranch) : Handout :=
  ({ id := g.path, kind := .path, label := g.label, folding := .expanded }, .group g.path)

/-- The item of an argument: its preview, under an identity. -/
def argItem (index : Nat) (entry : LogEntry) (id : String) (p : Preview) : Handout :=
  ({ id, kind := .arg, label := p.title, tooltip := some entry.location,
     folding := p.folding, logKind := some entry.kind }, .value index p)

/-- The item of an entry: several arguments go below it, a single one stands for it. -/
def logItem (registry : Registry) (index : Nat) (s : FiledEntry) : Handout :=
  if s.entry.args.length > 1 then
    ({ id := s.id, kind := .log, label := s.entry.title registry,
       tooltip := some s.entry.location, folding := .expanded,
       logKind := some s.entry.kind }, .entry index)
  else argItem index s.entry s.id ((s.entry.previews registry).headD {})

/-- The items of an entry's arguments, numbered from zero. -/
def argItems (registry : Registry) (index : Nat) (id : String) (entry : LogEntry) : List Handout :=
  (entry.previews registry).zipIdx.map fun (p, i) => argItem index entry (entryId id i) p

/-- The identity of a property below a value. -/
def propertyId (parent name : String) : String := parent ++ "['" ++ name ++ "']"

/-- The item of a property. -/
def propertyItem (f : Formatter) (fetch : Fetch) (p : Property) : Handout :=
  let preview := f.format p.value
  ({ id := propertyId fetch.parent p.name, kind := .prop, label := p.name ++ ":",
     description := some preview.title, tooltip := some p.tooltip,
     folding := preview.folding }, .value fetch.entry preview)

/-! ## Levels -/

/-- The entry at an index with its item. -/
def logItem? (t : LogTree) (registry : Registry) (index : Nat) : Option Handout :=
  t.stored[index]?.map (logItem registry index)

/-- The original line of the entry at an index. -/
def lineOf (t : LogTree) (index : Nat) : Nat :=
  (t.stored[index]?.map (·.entry.originalPosition.line)).getD 0

/-- Indexes by original line; equal lines keep their order. -/
def sortByLine (t : LogTree) (indexes : List Nat) : List Nat :=
  indexes.mergeSort fun i j => t.lineOf i ≤ t.lineOf j

/-- The level at a path, the whole tree when there is none. -/
def levelAt? (t : LogTree) (path : Option String) : Option PathIndex :=
  match path with
  | none => some t.paths
  | some path => t.paths.findPath? path

/-- **The items of a level**: its groups, then its entries by line. -/
def itemsAt (t : LogTree) (registry : Registry) (path : Option String) : List Handout :=
  match t.levelAt? path with
  | none => []
  | some level =>
    (level.groups path).map branchItem ++
      (t.sortByLine level.entries).filterMap (t.logItem? registry)

/-- The items of all entries in the order in which they came. -/
def flatItems (t : LogTree) (registry : Registry) : List Handout :=
  t.stored.zipIdx.map fun (s, i) => logItem registry i s

/-- **The items of the top level**, grouped or flat. -/
def topItems (t : LogTree) (registry : Registry) (settings : Settings) : List Handout :=
  if settings.groupByPath then t.itemsAt registry none else t.flatItems registry

/-- Gives items out: from now on their identities name their nodes. -/
def handOut (t : LogTree) (items : List Handout) : List Item × LogTree :=
  (items.map (·.1), { t with arena := items.foldl (fun a (i, n) => a.insert i.id n) t.arena })

/-! ## Queries -/

/-- What opening a node comes to; an unknown one and a leaf have no children. -/
def opening (t : LogTree) (registry : Registry) (id : String) : Opening :=
  match t.arena.get? id with
  | none => .ready []
  | some (.group path) => .ready (t.itemsAt registry (some path))
  | some (.entry index) =>
    match t.stored[index]? with
    | none => .ready []
    | some s => .ready (argItems registry index id s.entry)
  | some (.value index p) =>
    match p.handle with
    | none => .ready []
    | some handle =>
      .fetch { parent := id, handle, entry := index,
               generatedUrl := (t.stored[index]?.map (·.entry.generatedUrl)).getD "",
               generation := t.generation }

/-- The top level, if the page has loaded. -/
def root? (t : LogTree) (registry : Registry) (settings : Settings) :
    Option (List Item × LogTree) :=
  match t.phase with
  | .pending => none
  | .loaded => some (t.handOut (t.topItems registry settings))

/-- **The children of a node, or of the whole tree, as far as they are known at once.** -/
def query (t : LogTree) (registry : Registry) (settings : Settings) (parent : Option String) :
    Answer × LogTree :=
  if !t.ready then (.items [], t)
  else
    match parent with
    | none =>
      match t.root? registry settings with
      | none => (.waiting (.load settings), t)
      | some (items, t) => (.items items, t)
    | some id =>
      match t.opening registry id with
      | .ready children =>
        let (items, t) := t.handOut children
        (.items items, t)
      | .fetch f => (.waiting (.properties settings f), t)

/-- **The children of a value, now that its properties are known.** -/
def receive (t : LogTree) (registry : Registry) (fetch : Fetch) (properties : List Property) :
    List Item × LogTree :=
  if t.generation ≠ fetch.generation ∨ !t.arena.contains fetch.parent then ([], t)
  else
    let f : Formatter := { registry := some registry, fallbackUrl := some fetch.generatedUrl }
    t.handOut (properties.map (propertyItem f fetch))

end LogTree

end ConsoleLens
