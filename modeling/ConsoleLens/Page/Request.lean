import ConsoleLens.Settings.Basic
import ConsoleLens.SourceMap.Registry

/-!
# Page/Request — a map for every script that the page requests

A request of an ignored type is aborted.  Before a script is let through, the map beside it is
fetched and registered; **a fetch that fails aborts nothing**.
-/

namespace ConsoleLens

/-- What a fetch came to; a host that cannot be reached has no response. -/
structure Response where
  status : Nat
  content : Option String := none

/-- Whether a response is a success. -/
def Response.isOk (r : Response) : Bool := 200 ≤ r.status && r.status < 300

/-- What becomes of a request. -/
inductive RequestVerdict where
  | proceed
  | abort
  deriving DecidableEq

/-- What the network answers. -/
abbrev Network := String → Option Response

namespace Request

/-- The address of a script's map. -/
def mapUrl (script : String) : String := script ++ ".map"

/-- The text of a map in a response: of a success, and not empty. -/
def content? (r : Option Response) : Option String :=
  match r with
  | none => none
  | some r => if r.isOk then r.content.filter (· ≠ "") else none

/-- **Fetches and registers the map of a script**; whether there was one. -/
def fetchMap (registry : Registry) (network : Network) (script : String) : Bool × Registry :=
  match content? (network (mapUrl script)) with
  | none => (false, registry)
  | some data => registry.addMap script data

/-- Whether a request is aborted. -/
def isIgnored (settings : Settings) (type : String) : Bool :=
  settings.ignoredRequestTypes.contains type

/-- Whether a request makes a fetch. -/
def fetches (settings : Settings) (type : String) : Bool :=
  !isIgnored settings type && type = "script"

/-- **Handles a request of the page.** -/
def handle (settings : Settings) (registry : Registry) (network : Network) (url type : String) :
    RequestVerdict × Registry :=
  if isIgnored settings type then (.abort, registry)
  else if type = "script" then (.proceed, (fetchMap registry network url).2)
  else (.proceed, registry)

end Request

end ConsoleLens
