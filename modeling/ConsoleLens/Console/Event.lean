import ConsoleLens.Remote.Codec

/-!
# Console/Event — a console call as the page reports it

An event names the console method, carries the arguments and, usually, the stack at the call.
-/

namespace ConsoleLens

open Json

/-- The console method that made an entry. -/
inductive LogKind where
  | log
  | debug
  | info
  | error
  | warning
  | dir
  | table
  | trace
  | assert
  | count
  | timeEnd
  | other
  deriving DecidableEq, Inhabited

namespace LogKind

/-- The word on the wire. -/
def name : LogKind → String
  | log => "log"
  | debug => "debug"
  | info => "info"
  | error => "error"
  | warning => "warning"
  | dir => "dir"
  | table => "table"
  | trace => "trace"
  | assert => "assert"
  | count => "count"
  | timeEnd => "timeEnd"
  | other => "other"

/-- The method that a word names; every other word is `other`. -/
def ofName : String → LogKind
  | "log" => log
  | "debug" => debug
  | "info" => info
  | "error" => error
  | "warning" => warning
  | "dir" => dir
  | "table" => table
  | "trace" => trace
  | "assert" => assert
  | "count" => count
  | "timeEnd" => timeEnd
  | _ => other

theorem ofName_name (k : LogKind) : ofName k.name = k := by cases k <;> rfl

/-- Reads a method: any word, known or not. -/
def ofJson? (j : Json) : Option LogKind := (caseName? j).map ofName

/-- Writes a method. -/
def toJson (k : LogKind) : Json := .string k.name

end LogKind

/-- One frame of a stack; line and column count from 0. -/
structure CallFrame where
  functionName : String := ""
  scriptId : String := ""
  url : String
  lineNumber : Nat
  columnNumber : Nat
  deriving DecidableEq

/-- A stack, innermost frame first. -/
structure StackTrace where
  callFrames : List CallFrame := []
  deriving DecidableEq

/-- **A console call reported by the page.** -/
structure ConsoleEvent where
  kind : LogKind
  args : List RemoteObject := []
  stackTrace : Option StackTrace := none

namespace CallFrame

/-- Reads a frame. -/
def ofJson? (j : Json) : Option CallFrame := do
  let r ← j.record? ["functionName", "scriptId", "url", "lineNumber", "columnNumber"]
  return {
    functionName := ← r.orElse "functionName" "" text?
    scriptId := ← r.orElse "scriptId" "" text?
    url := ← r.required "url" text?
    lineNumber := ← r.required "lineNumber" index?
    columnNumber := ← r.required "columnNumber" index? }

/-- Writes a frame. -/
def toJson (f : CallFrame) : Json :=
  .object
    [("functionName", .string f.functionName), ("scriptId", .string f.scriptId),
      ("url", .string f.url), ("lineNumber", .ofNat f.lineNumber),
      ("columnNumber", .ofNat f.columnNumber)]

end CallFrame

namespace StackTrace

/-- Reads a stack. -/
def ofJson? (j : Json) : Option StackTrace := do
  let r ← j.record? ["callFrames"]
  return { callFrames := ← r.orElse "callFrames" [] (list? CallFrame.ofJson?) }

/-- Writes a stack. -/
def toJson (s : StackTrace) : Json :=
  .object [("callFrames", ofList CallFrame.toJson s.callFrames)]

end StackTrace

namespace ConsoleEvent

/-- The wording for an event that does not decode. -/
def malformedMessage : String := "Malformed Runtime.consoleAPICalled event"

/-- The innermost frame, if the page captured one. -/
def innermostFrame (e : ConsoleEvent) : Option CallFrame := e.stackTrace.bind (·.callFrames.head?)

/-- **Reads an event.** -/
def ofJson? (j : Json) : Option ConsoleEvent := do
  let r ← j.record? ["type", "args", "stackTrace"]
  return {
    kind := ← r.required "type" LogKind.ofJson?
    args := ← r.orElse "args" [] (list? RemoteObject.ofJson?)
    stackTrace := ← r.optional "stackTrace" StackTrace.ofJson? }

/-- **Writes an event.** -/
def toJson (e : ConsoleEvent) : Json :=
  .object <|
    [("type", e.kind.toJson), ("args", ofList RemoteObject.toJson e.args)] ++
    member "stackTrace" (e.stackTrace.map StackTrace.toJson)

end ConsoleEvent

end ConsoleLens
