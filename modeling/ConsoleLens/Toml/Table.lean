import ConsoleLens.Toml.Value

/-!
# Toml/Table — what a text adds to its tables

Three kinds of line add to a table: a pair of a key and a value, the header of a table, and the
header of one more table of an array.  **No line gives a value to a name that has one**, a table
gets its header once, and what stands between braces or brackets is closed.
-/

namespace ConsoleLens.Toml

/-- The members of a table, in the order in which they came. -/
abbrev Members := List (String × Toml)

/-- A key: the name it ends in, with the tables in front of it. -/
structure Key where
  tables : List String
  name : String

/-- What a member holds is replaced; a new member comes last. -/
def setMember (name : String) (v : Toml) : Members → Members
  | [] => [(name, v)]
  | (n, w) :: rest => if n = name then (n, v) :: rest else (n, w) :: setMember name v rest

/-- Whether a table may be entered: a closed one never, and on a dotted key only one that has no
header. -/
def TableKind.isOpen (fresh kind : TableKind) : Bool :=
  match fresh, kind with
  | _, .braced => false
  | .dotted, .headed => false
  | _, _ => true

/-- **The table changed at the end of a path.**  Tables that are missing on the way are `fresh`; of
an array that grows, the last table is meant. -/
def changeAt? (fresh : TableKind) (change : TableKind → Members → Option Toml) :
    List String → TableKind → Members → Option Toml
  | [], kind, members => change kind members
  | name :: path, kind, members =>
    let inner :=
      match members.lookup name with
      | none => changeAt? fresh change path fresh []
      | some (.table k inside) =>
        if fresh.isOpen k then changeAt? fresh change path k inside else none
      | some (.array true items) =>
        match items.getLast? with
        | some (.table k inside) =>
          (changeAt? fresh change path k inside).map fun v => .array true (items.dropLast ++ [v])
        | _ => none
      | some _ => none
    inner.map fun v => .table kind (setMember name v members)

/-- A pair put into the table that its key leads to: dotted keys fill only tables of dotted keys. -/
def putPair? (key : Key) (v : Toml) (kind : TableKind) (members : Members) : Option Toml :=
  changeAt? .dotted
    (fun kind members =>
      if (kind = .dotted) ↔ key.tables = [] then none
      else
        match members.lookup key.name with
        | none => some (.table kind (members ++ [(key.name, v)]))
        | some _ => none)
    key.tables kind members

/-- A table opened by its header: a new one, or one that so far was only on the way. -/
def openTable? (key : Key) (kind : TableKind) (members : Members) : Option Toml :=
  changeAt? .implied
    (fun kind members =>
      match members.lookup key.name with
      | none => some (.table kind (members ++ [(key.name, .table .headed [])]))
      | some (.table .implied inside) =>
        some (.table kind (setMember key.name (.table .headed inside) members))
      | some _ => none)
    key.tables kind members

/-- One more table of an array that headers append to. -/
def appendTable? (key : Key) (kind : TableKind) (members : Members) : Option Toml :=
  changeAt? .implied
    (fun kind members =>
      match members.lookup key.name with
      | none => some (.table kind (members ++ [(key.name, .array true [.table .headed []])]))
      | some (.array true items) =>
        some (.table kind
          (setMember key.name (.array true (items ++ [.table .headed []])) members))
      | some _ => none)
    key.tables kind members

/-- **A table between braces** that holds the given pairs. -/
def ofPairs? (pairs : List (Key × Toml)) : Option Toml :=
  pairs.foldlM
    (fun t (key, v) =>
      match t with
      | .table kind members => putPair? key v kind members
      | _ => none)
    (.table .braced [])

end ConsoleLens.Toml
