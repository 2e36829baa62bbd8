import ConsoleLens.Remote.Object

/-!
# Remote/Property — what a query for an object's properties answers

Regular properties and the engine's internal slots are reported apart.  An accessor has no value.
-/

namespace ConsoleLens

/-- A regular property as it is reported. -/
structure PropertyDescriptor where
  name : String
  value : Option RemoteObject := none
  writable : Option Bool := none
  get : Option RemoteObject := none
  set : Option RemoteObject := none
  configurable : Bool := false
  enumerable : Bool := false
  isOwn : Option Bool := none

/-- An internal slot such as `[[PromiseState]]`. -/
structure InternalDescriptor where
  name : String
  value : Option RemoteObject := none

/-- **The answer to one query**: a list of slots that is missing is not the empty list. -/
structure PropertiesAnswer where
  result : List PropertyDescriptor := []
  internalProperties : Option (List InternalDescriptor) := none

end ConsoleLens
