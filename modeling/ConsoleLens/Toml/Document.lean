import ConsoleLens.Toml.Line

/-!
# Toml/Document — a whole text as one table

A header names the table that the pairs after it belong to, up to the next header.
-/

namespace ConsoleLens.Toml

/-- The whole text so far, with the path of the table that pairs belong to. -/
structure Document where
  members : Members := []
  current : List String := []

namespace Document

/-- The document whose members a change replaced. -/
def withMembers? (d : Document) (change : TableKind → Members → Option Toml) : Option Document :=
  match change .headed d.members with
  | some (.table _ members) => some { d with members }
  | _ => none

/-- The path that a key spells. -/
def pathOf (key : Key) : List String := key.tables ++ [key.name]

/-- **The document with one more line.** -/
def add? (d : Document) : Line → Option Document
  | .pair key v => d.withMembers? (changeAt? .implied (putPair? key v) d.current)
  | .table key => { d with current := pathOf key }.withMembers? (openTable? key)
  | .tables key => { d with current := pathOf key }.withMembers? (appendTable? key)

/-- The document of some lines. -/
def ofLines? (lines : List Line) : Option Document := lines.foldlM add? {}

end Document

/-- **The table that a text holds.** -/
def ofText? (text : String) : Option Toml :=
  (lines? text.toList).bind fun lines =>
    (Document.ofLines? lines).map fun d => .table .headed d.members

end ConsoleLens.Toml
