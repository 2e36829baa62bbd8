import ConsoleLens.Property.Basic
import ConsoleLens.Table

/-!
# Page/Runtime — a page that answers from a table

Each object has two answers, one for its own properties and one for its accessors.  An object that
is not in the table and a query that is set to fail have none.  A page with a gate answers only
while the gate is open.
-/

namespace ConsoleLens

/-- **A page that answers from a table.** -/
structure Runtime where
  objects : Table String (PropertiesAnswer × PropertiesAnswer) := {}
  gate : Option Bool := none
  failing : List (String × Bool) := []
  queries : Nat := 0

/-- Why properties cannot be asked for. -/
inductive PropertyFault where
  | missingHandle
  deriving DecidableEq

/-- The wording of a cause. -/
def PropertyFault.message : PropertyFault → String
  | missingHandle => "property fetch requested without an object handle"

namespace Runtime

/-- Whether the page answers now. -/
def isOpen (r : Runtime) : Bool := r.gate.getD true

/-- The answer to one of an object's two queries, if it does not fail. -/
def answer? (r : Runtime) (handle : String) (own : Bool) : Option PropertiesAnswer :=
  match r.objects.get? handle with
  | none => none
  | some (ownAnswer, accessors) =>
    if r.failing.contains (handle, own) then none
    else some (if own then ownAnswer else accessors)

/-- Both queries for an object are made. -/
def countQueries (r : Runtime) : Runtime := { r with queries := r.queries + 2 }

/-- The properties of an object, as its two answers give them. -/
def properties (r : Runtime) (handle : String) (showEnumerable : Bool) : List Property :=
  Property.ofAnswers (r.answer? handle true) (r.answer? handle false) showEnumerable

/-- **Asks for the properties of an object**, which takes a handle. -/
def fetch (r : Runtime) (handle : Option String) (showEnumerable : Bool) :
    Except PropertyFault (List Property × Runtime) :=
  match handle with
  | none => .error .missingHandle
  | some handle => .ok (r.properties handle showEnumerable, r.countQueries)

/-- Sets a query to fail; whether it did not before. -/
def fail (r : Runtime) (handle : String) (own : Bool) : Bool × Runtime :=
  if r.failing.contains (handle, own) then (false, r)
  else (true, { r with failing := (handle, own) :: r.failing })

/-- Lets a query succeed again; whether it failed before. -/
def unfail (r : Runtime) (handle : String) (own : Bool) : Bool × Runtime :=
  (r.failing.contains (handle, own),
    { r with failing := r.failing.filter (· ≠ (handle, own)) })

end Runtime

end ConsoleLens
