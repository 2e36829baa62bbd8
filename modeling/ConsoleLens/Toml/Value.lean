import ConsoleLens.Json.Basic

/-!
# Toml/Value — the values of a configuration text

Tables remember how they came about, for that decides what may still be added to them.  Numbers with
a point and dates are only ever passed over, so they keep nothing.
-/

namespace ConsoleLens

namespace Toml

/-- How a table came about. -/
inductive TableKind where
  /-- By its own header, or as the whole text. -/
  | headed
  /-- On the way to a table with a header. -/
  | implied
  /-- On the way to a dotted key. -/
  | dotted
  /-- Between braces. -/
  | braced
  deriving DecidableEq

end Toml

/-- A value of a configuration text.  An array is `growing` when headers append to it. -/
inductive Toml where
  | string (s : String)
  | integer (n : Int)
  | float
  | boolean (b : Bool)
  | date
  | array (growing : Bool) (items : List Toml)
  | table (kind : Toml.TableKind) (members : List (String × Toml))

namespace Toml

mutual

/-- **A value as JSON**; what has no counterpart there cannot be used. -/
def toJson : Toml → Json
  | .string s => .string s
  | .integer n => .ofInt n
  | .boolean b => .bool b
  | .float => .unusable
  | .date => .unusable
  | .array _ items => .array (itemsToJson items)
  | .table _ members => .object (membersToJson members)

/-- Items as JSON. -/
def itemsToJson : List Toml → List Json
  | [] => []
  | v :: rest => toJson v :: itemsToJson rest

/-- Members as JSON. -/
def membersToJson : List (String × Toml) → List (String × Json)
  | [] => []
  | (name, v) :: rest => (name, toJson v) :: membersToJson rest

end

end Toml

end ConsoleLens
