import ConsoleLens.Console.Event
import ConsoleLens.Preview.Basic

/-!
# Console/Entry — a console call and where it came from

An entry is made once, from an event's innermost frame.  The frame counts lines and columns from 0
and the original place counts them from 1; **the original place is empty when no map knows it**, and
there is no entry when it cannot be counted from 1.
-/

namespace ConsoleLens

/-- **A console call and where it came from.** -/
structure LogEntry where
  kind : LogKind := .log
  args : List RemoteObject := []
  generatedUrl : String := ""
  generatedPosition : Position := {}
  originalPosition : Position := {}

namespace LogEntry

/-- One more, up to the largest index. -/
def next (n : Nat) : Nat := min (n + 1) Json.maxIndex

/-- The original place of a frame, its source reduced to a path. -/
def originalOf (frame : CallFrame) (registry : Registry) : Except Overflow Position := do
  let place ← registry.resolve frame.url (next frame.lineNumber) (next frame.columnNumber)
  return if place.isEmpty then place else { place with source := addressPath place.source }

/-- **The entry of an event**, missing when there is no frame. -/
def ofEvent? (event : ConsoleEvent) (registry : Registry) : Except Overflow (Option LogEntry) :=
  match event.innermostFrame with
  | none => .ok none
  | some frame => do
    let originalPosition ← originalOf frame registry
    return some {
      kind := event.kind
      args := event.args
      generatedUrl := frame.url
      generatedPosition := ⟨frame.lineNumber, frame.columnNumber, addressPath frame.url⟩
      originalPosition }

/-- Whether the entry can be shown: it has an argument and an original place. -/
def isShowable (e : LogEntry) : Bool :=
  !e.args.isEmpty && !e.originalPosition.source.isEmpty && e.originalPosition.line > 0

/-- What names the place of the call, the same for every entry from it. -/
def key (e : LogEntry) : String := e.originalPosition.text

/-- Source and line of the call. -/
def location (e : LogEntry) : String := e.originalPosition.location

/-- What the arguments are shown with. -/
def formatter (e : LogEntry) (registry : Registry) : Formatter :=
  { registry := some registry, fallbackUrl := some e.generatedUrl }

/-- What each argument is shown as. -/
def previews (e : LogEntry) (registry : Registry) : List Preview :=
  e.args.map (e.formatter registry).format

/-- **All arguments on one line.** -/
def title (e : LogEntry) (registry : Registry) : String :=
  ", ".intercalate (e.args.map (e.formatter registry).title)

end LogEntry

end ConsoleLens
