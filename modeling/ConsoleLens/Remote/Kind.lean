/-!
# Remote/Kind — the declared type of a remote value

The wire names a type by a word.  A word that is not known stands for `unknown`, which is also
written back as such.
-/

namespace ConsoleLens

/-- The declared type of a value in the page. -/
inductive RemoteKind where
  | object
  | function
  | undefined
  | string
  | number
  | boolean
  | symbol
  | bigint
  | accessor
  | unknown
  deriving DecidableEq, Inhabited

namespace RemoteKind

/-- The word on the wire. -/
def name : RemoteKind → String
  | object => "object"
  | function => "function"
  | undefined => "undefined"
  | string => "string"
  | number => "number"
  | boolean => "boolean"
  | symbol => "symbol"
  | bigint => "bigint"
  | accessor => "accessor"
  | unknown => "unknown"

/-- The type that a word names; every other word is `unknown`. -/
def ofName : String → RemoteKind
  | "object" => object
  | "function" => function
  | "undefined" => undefined
  | "string" => string
  | "number" => number
  | "boolean" => boolean
  | "symbol" => symbol
  | "bigint" => bigint
  | "accessor" => accessor
  | _ => unknown

theorem ofName_name (k : RemoteKind) : ofName k.name = k := by cases k <;> rfl

end RemoteKind

end ConsoleLens
