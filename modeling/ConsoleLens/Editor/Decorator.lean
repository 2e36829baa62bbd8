import ConsoleLens.Console.Entry
import ConsoleLens.Editor.DocumentPath
import ConsoleLens.Settings.Basic
import ConsoleLens.Table

/-!
# Editor/Decorator — logs beside the lines that made them

Only the document in front of the editor is decorated, with the logs whose source it is.  While it
has unsaved changes its lines may have moved, so **a dirty document is cleared instead**.
-/

namespace ConsoleLens

/-- A text beside a line of a document, counted from 0. -/
structure Decoration where
  path : DocumentPath
  line : Nat
  text : String
  color : String

/-- Decorations are the same when they look the same at the same place. -/
instance : BEq Decoration :=
  ⟨fun a b => a.path == b.path && a.line == b.line && a.text == b.text && a.color == b.color⟩

/-- **What the editor is told**: to show a decoration, or to drop those of a document or of all. -/
inductive DecorationChange where
  | add (decoration : Decoration)
  | clear (path : Option DocumentPath)

/-- The document in front of the editor. -/
structure FrontDocument where
  path : DocumentPath
  dirty : Bool

/-- What is shown in which document; documents are known by the components of their paths. -/
structure Decorator where
  workspace : DocumentPath
  active : Option FrontDocument := none
  shown : Table (Bool × List (List Char)) (List Decoration) := {}

namespace Decorator

/-- The document of a source. -/
def pathOf (d : Decorator) (source : String) : DocumentPath :=
  d.workspace.join (Text.trimSlashes source.toList)

/-- Another document in front. -/
def bringToFront (d : Decorator) (document : Option FrontDocument) : Decorator :=
  { d with active := document }

/-- Marks the document in front, if it is the one at the path. -/
def markDirty (d : Decorator) (path : DocumentPath) (dirty : Bool) : Decorator :=
  { d with active := d.active.map fun a => if a.path == path then { a with dirty } else a }

/-- **The decorations held for a document.** -/
def held (d : Decorator) (path : DocumentPath) : List Decoration :=
  (d.shown.get? path.components).getD []

/-- Holds other decorations for a document. -/
def hold (d : Decorator) (path : DocumentPath) (decorations : List Decoration) : Decorator :=
  { d with shown := d.shown.insert path.components decorations }

/-- The decoration of an entry in a document. -/
def decorationOf (registry : Registry) (settings : Settings) (path : DocumentPath)
    (e : LogEntry) : Decoration :=
  { path, line := e.originalPosition.line - 1, text := e.title registry,
    color := settings.shownColor }

/-- Holds a decoration of its document, once. -/
def keep (d : Decorator) (decoration : Decoration) : Decorator :=
  let held := d.held decoration.path
  if held.contains decoration then d else d.hold decoration.path (held ++ [decoration])

/-- The decorations of the entries that belong to a document. -/
def matching (d : Decorator) (registry : Registry) (settings : Settings) (path : DocumentPath)
    (entries : List LogEntry) : List Decoration :=
  (entries.filter fun e => d.pathOf e.originalPosition.source == path).map
    (decorationOf registry settings path)

/-- **Decorates the document in front** with the entries that belong to it; each is shown again even
if it is held. -/
def decorate (d : Decorator) (registry : Registry) (settings : Settings)
    (entries : List LogEntry) : Decorator × List DecorationChange :=
  match d.active with
  | none => (d, [])
  | some a =>
    if a.dirty then (d.hold a.path [], [.clear (some a.path)])
    else
      let decorations := d.matching registry settings a.path entries
      (decorations.foldl keep d, decorations.map .add)

/-- Holds nothing any more. -/
def reset (d : Decorator) : Decorator := { d with shown := {} }

end Decorator

end ConsoleLens
