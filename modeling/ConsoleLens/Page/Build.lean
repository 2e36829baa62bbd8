import ConsoleLens.Json.Reader
import ConsoleLens.Json.Record

/-!
# Page/Build — when the dev server has rebuilt the page

The server sends frames of messages.  A message of the type `hash` names the build; **a build that
differs from the one before it calls for a reload**.  Everything else is passed over.
-/

namespace ConsoleLens

open Json

/-- A message of the dev server. -/
structure ServerMessage where
  kind : String
  data : Json := .null

/-- Reads a message. -/
def ServerMessage.ofJson? (j : Json) : Option ServerMessage := do
  let r ← j.record? ["type", "data"]
  return {
    kind := ← r.required "type" text?
    data := ← r.orElse "data" .null any? }

/-- The build that a message names. -/
def ServerMessage.hash? (m : ServerMessage) : Option String :=
  if m.kind = "hash" then text? m.data else none

/-- The texts of the messages in a frame: it is the letter `a` with a list of texts after it. -/
def frameMessages? (frame : String) : Option (List String) :=
  match frame.toList with
  | 'a' :: rest => (Json.read? (String.ofList rest)).bind (list? text?)
  | _ => none

/-- The builds that a frame names, in order. -/
def frameHashes (frame : String) : List String :=
  ((frameMessages? frame).getD []).filterMap fun text =>
    ((Json.read? text).bind ServerMessage.ofJson?).bind ServerMessage.hash?

/-- The build that the server named last. -/
structure BuildMonitor where
  build : Option String := none

namespace BuildMonitor

/-- Takes note of a build; whether it differs from the one before. -/
def note (m : BuildMonitor) (hash : String) : Bool × BuildMonitor :=
  (m.build.any (· ≠ hash), ⟨some hash⟩)

/-- Takes note of builds; whether one differs from the one before it. -/
def noteAll (m : BuildMonitor) (hashes : List String) : Bool × BuildMonitor :=
  hashes.foldl (fun (reload, m) hash =>
    let (differs, m) := m.note hash
    (reload || differs, m)) (false, m)

/-- **Takes note of a frame**; whether the page should be reloaded. -/
def receive (m : BuildMonitor) (frame : String) : Bool × BuildMonitor :=
  m.noteAll (frameHashes frame)

end BuildMonitor

end ConsoleLens
