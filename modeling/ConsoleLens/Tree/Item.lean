import ConsoleLens.Console.Event
import ConsoleLens.Preview.Basic

/-!
# Tree/Item — a node as the editor shows it
-/

namespace ConsoleLens

/-- What an item stands for. -/
inductive ItemKind where
  | path
  | log
  | arg
  | prop
  deriving DecidableEq

/-- Whether an item has children, and whether they show at first. -/
inductive Folding where
  | leaf
  | collapsed
  | expanded
  deriving DecidableEq

/-- **A node as the editor shows it**; the identity asks for its children. -/
structure Item where
  id : String
  kind : ItemKind
  label : String
  description : Option String := none
  tooltip : Option String := none
  folding : Folding
  logKind : Option LogKind := none
  deriving DecidableEq

/-- A value can be opened when it has a handle. -/
def Preview.folding (p : Preview) : Folding :=
  if p.isExpandable then .collapsed else .leaf

end ConsoleLens
