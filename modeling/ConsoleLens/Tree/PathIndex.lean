import ConsoleLens.Text.Split

/-!
# Tree/PathIndex — entries filed under the segments of a path

A level holds the entries filed right there and its child levels, in the order of their names.  As
groups are shown, **a directory that holds nothing but one other directory is merged with it**.
-/

namespace ConsoleLens

/-- A level: the indexes filed at it and the levels below it by name. -/
inductive PathIndex where
  | level (entries : List Nat) (children : List (String × PathIndex))

/-- A group as it is shown. -/
structure PathBranch where
  path : String
  label : String
  deriving DecidableEq

namespace PathIndex

/-- The level without anything. -/
def empty : PathIndex := .level [] []

/-- The indexes filed at a level, in the order in which they came. -/
def entries : PathIndex → List Nat
  | .level es _ => es

/-- The levels below a level. -/
def children : PathIndex → List (String × PathIndex)
  | .level _ cs => cs

/-- Whether nothing is filed at a level or below. -/
def isEmpty (l : PathIndex) : Bool := l.children.isEmpty && l.entries.isEmpty

/-- Levels in the order of their names with the one of a name changed, an empty one being made if
there is none. -/
def modifyChild (name : String) (f : PathIndex → PathIndex) :
    List (String × PathIndex) → List (String × PathIndex)
  | [] => [(name, f empty)]
  | (n, child) :: rest =>
    if name < n then (name, f empty) :: (n, child) :: rest
    else if name = n then (n, f child) :: rest
    else (n, child) :: modifyChild name f rest

/-- **Files an index under a path**, making levels as needed. -/
def insert (index : Nat) : List String → PathIndex → PathIndex
  | [], .level es cs => .level (es ++ [index]) cs
  | name :: rest, .level es cs => .level es (modifyChild name (insert index rest) cs)

/-- The level at a path below this one. -/
def find? : List String → PathIndex → Option PathIndex
  | [], l => some l
  | name :: rest, .level _ cs => (cs.lookup name).bind (find? rest)

/-- The level that a text names, empty segments not counting. -/
def findPath? (l : PathIndex) (path : String) : Option PathIndex := l.find? (Text.segments path)

/-- A group after merging: `path` and `label` lead to the level. -/
def compact (path label : String) : PathIndex → PathBranch
  | .level [] [(name, .level es (c :: cs))] =>
    compact (path ++ "/" ++ name) (label ++ "/" ++ name) (.level es (c :: cs))
  | _ => ⟨path, label⟩

/-- The path of a child of the level at `parent`, the root having none. -/
def childPath (parent : Option String) (name : String) : String :=
  match parent with
  | some parent => parent ++ "/" ++ name
  | none => name

/-- **The groups below a level**, in the order of their names. -/
def groups (l : PathIndex) (parent : Option String) : List PathBranch :=
  l.children.map fun (name, child) => compact (childPath parent name) name child

end PathIndex

end ConsoleLens
