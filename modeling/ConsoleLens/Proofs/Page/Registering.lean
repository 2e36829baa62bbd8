import ConsoleLens.Page.Request
import ConsoleLens.Proofs.SourceMap.Rectangle

/-!
# Proofs/Page/Registering — which map answers for an address

Maps come as texts, ready made or beside the scripts that the page requests, and only some of
what comes is a map.  `RegistryEvent.Brings` says when an event brings one, and **an address is
answered from the last map that was brought for it** (`resolve_run`): everything else, a text that
is refused, a fetch that fails, a request that is aborted, a map for another address, leaves its
answers as they are.
-/

namespace ConsoleLens

/-! ## Requests -/

/-- What a map answers for a place, lines and columns counted from 1 on both sides. -/
def SourceMap.resolve (m : SourceMap) (line column : Nat) : Except Overflow Position :=
  if line = 0 ∨ column = 0 then .ok .empty
  else
    match m.lookup? (line - 1) (column - 1) with
    | none => .ok .empty
    | some found => found.position

/-- An address answers as its map does. -/
theorem Registry.resolve_eq_elim (r : Registry) (url : String) (line column : Nat) :
    r.resolve url line column = (r.maps.get? url).elim (.ok .empty) (·.resolve line column) := by
  unfold Registry.resolve
  cases r.maps.get? url with
  | none => exact ite_self _
  | some m => rfl

theorem SourceMap.ne_empty_of_parse {data : String} {m : SourceMap} (h : parse data = .ok m) :
    data ≠ "" := by
  rintro rfl
  cases h

namespace Request

theorem isIgnored_iff {settings : Settings} {type : String} :
    isIgnored settings type = true ↔ type ∈ settings.ignoredRequestTypes :=
  List.contains_iff_mem

theorem content?_eq_some {r : Option Response} {data : String} :
    content? r = some data ↔
      ∃ response, r = some response ∧ response.isOk = true ∧ response.content = some data ∧
        data ≠ "" := by
  cases r with
  | none => simp [content?]
  | some response => cases hok : response.isOk <;> simp [content?, hok, Option.filter_eq_some_iff]

/-- **An ignored type is aborted**, whatever the network would answer, and nothing is fetched. -/
theorem handle_of_ignored {settings : Settings} {type : String}
    (h : type ∈ settings.ignoredRequestTypes) (registry : Registry) (network : Network)
    (url : String) : handle settings registry network url type = (.abort, registry) := by
  rw [handle, if_pos (isIgnored_iff.mpr h)]

theorem handle_script {settings : Settings} (h : "script" ∉ settings.ignoredRequestTypes)
    (registry : Registry) (network : Network) (url : String) :
    handle settings registry network url "script" =
      (.proceed, (fetchMap registry network url).2) := by
  rw [handle, if_neg (mt isIgnored_iff.mp h), if_pos rfl]

theorem handle_of_ne_script {settings : Settings} {type : String}
    (h : type ∉ settings.ignoredRequestTypes) (hscript : type ≠ "script") (registry : Registry)
    (network : Network) (url : String) :
    handle settings registry network url type = (.proceed, registry) := by
  rw [handle, if_neg (mt isIgnored_iff.mp h), if_neg hscript]

theorem handle_abort_iff {settings : Settings} {type : String} (registry : Registry)
    (network : Network) (url : String) :
    (handle settings registry network url type).1 = .abort ↔
      type ∈ settings.ignoredRequestTypes := by
  by_cases h : type ∈ settings.ignoredRequestTypes
  · rw [handle_of_ignored h]
    exact iff_of_true rfl h
  · have hproceed : (handle settings registry network url type).1 = .proceed := by
      by_cases hscript : type = "script"
      · subst hscript
        rw [handle_script h]
      · rw [handle_of_ne_script h hscript]
    rw [hproceed]
    exact iff_of_false nofun h

theorem not_fetches_of_ignored {settings : Settings} {type : String}
    (h : type ∈ settings.ignoredRequestTypes) : fetches settings type = false := by
  rw [fetches, isIgnored_iff.mpr h]
  rfl

end Request

/-! ## Events -/

/-- **What happens to the maps of a page**: a text or a map comes for an address, a script gets its
address, or the page requests something while some settings are in force and the network answers as
it does. -/
inductive RegistryEvent where
  | addMap (url data : String)
  | insertMap (url : String) (m : SourceMap)
  | addScript (id url : String)
  | request (settings : Settings) (network : Network) (url type : String)

namespace RegistryEvent

variable {url : String} {m : SourceMap} {r : Registry} {e : RegistryEvent}
  {events : List RegistryEvent}

/-- The registry after an event. -/
def step (r : Registry) : RegistryEvent → Registry
  | addMap url data => (r.addMap url data).2
  | insertMap url m => r.insertMap url m
  | addScript id url => r.addScript id url
  | request settings network url type => (Request.handle settings r network url type).2

/-- The registry after events, which knows nothing before them. -/
def run (events : List RegistryEvent) : Registry := events.foldl step .empty

/-- **The map that an event brings for an address**: a text that describes it, the map itself, or a
script at the address whose type is not ignored, with the text beside it. -/
inductive Brings (url : String) (m : SourceMap) : RegistryEvent → Prop
  | text {data : String} (h : SourceMap.parse data = .ok m) : Brings url m (addMap url data)
  | map : Brings url m (insertMap url m)
  | script {settings : Settings} {network : Network} {response : Response} {data : String}
      (hsettings : "script" ∉ settings.ignoredRequestTypes)
      (hnetwork : network (url ++ ".map") = some response) (hok : response.isOk = true)
      (hcontent : response.content = some data) (h : SourceMap.parse data = .ok m) :
      Brings url m (request settings network url "script")

/-- The address whose map an event may change. -/
def address? : RegistryEvent → Option String
  | addMap url _ => some url
  | insertMap url _ => some url
  | addScript _ _ => none
  | request _ _ url _ => some url

/-- An event for another address brings nothing. -/
theorem Brings.address (h : e.Brings url m) : e.address? = some url := by
  cases h <;> rfl

/-- A text is accepted when it brings a map. -/
theorem addMap_fst_iff (r : Registry) (url data : String) :
    (r.addMap url data).1 = true ↔ ∃ m, (addMap url data).Brings url m := by
  cases hparse : SourceMap.parse data with
  | ok m =>
    rw [Registry.addMap_of_parse hparse]
    exact iff_of_true rfl ⟨m, .text hparse⟩
  | error e =>
    rw [Registry.addMap, hparse]
    refine iff_of_false Bool.false_ne_true ?_
    rintro ⟨m, ⟨h⟩⟩
    rw [hparse] at h
    cases h

/-! ## One event -/

theorem get?_insertMap (r : Registry) (url target : String) (m : SourceMap) :
    (r.insertMap target m).maps.get? url = if url = target then some m else r.maps.get? url :=
  Table.get?_insert ..

/-- **The map that an event brings for an address is the one that the address has after it.** -/
theorem Brings.get?_step (h : e.Brings url m) (r : Registry) :
    (e.step r).maps.get? url = some m := by
  cases h with
  | text h => rw [step, Registry.addMap_of_parse h, get?_insertMap, if_pos rfl]
  | map => rw [step, get?_insertMap, if_pos rfl]
  | script hsettings hnetwork hok hcontent h =>
    have hcontent := Request.content?_eq_some.mpr
      ⟨_, hnetwork, hok, hcontent, SourceMap.ne_empty_of_parse h⟩
    rw [step, Request.handle_script hsettings, Request.fetchMap, Request.mapUrl, hcontent]
    change ((r.addMap url _).2).maps.get? url = some m
    rw [Registry.addMap_of_parse h, get?_insertMap, if_pos rfl]

/-- A text for an address that is no map, or for another address. -/
theorem get?_addMap_of_not {target data : String}
    (h : ∀ m, SourceMap.parse data = .ok m → target ≠ url) (r : Registry) :
    (r.addMap target data).2.maps.get? url = r.maps.get? url := by
  cases hparse : SourceMap.parse data with
  | error e => rw [Registry.addMap, hparse]
  | ok m => rw [Registry.addMap_of_parse hparse, get?_insertMap, if_neg (h m hparse).symm]

/-- **An event that brings no map for an address leaves the address its map.** -/
theorem get?_step_of_not_brings (h : ∀ m, ¬ e.Brings url m) (r : Registry) :
    (e.step r).maps.get? url = r.maps.get? url := by
  cases e with
  | addMap target data =>
    refine get?_addMap_of_not (fun m hm => ?_) r
    rintro rfl
    exact h m (.text hm)
  | insertMap target m =>
    rw [step, get?_insertMap, if_neg]
    rintro rfl
    exact h m .map
  | addScript id target => rfl
  | request settings network target type =>
    rw [step]
    by_cases hignored : type ∈ settings.ignoredRequestTypes
    · rw [Request.handle_of_ignored hignored]
    by_cases hscript : type = "script"
    · subst hscript
      rw [Request.handle_script hignored, Request.fetchMap]
      cases hcontent : Request.content? (network (Request.mapUrl target)) with
      | none => rfl
      | some data =>
        obtain ⟨response, hnetwork, hok, hdata, -⟩ := Request.content?_eq_some.mp hcontent
        refine get?_addMap_of_not (fun m hm => ?_) r
        rintro rfl
        exact h m (.script hignored hnetwork hok hdata hm)
    · rw [Request.handle_of_ne_script hignored hscript]

/-! ## Runs -/

theorem get?_foldl_of_not_brings (h : ∀ e ∈ events, ∀ m, ¬ e.Brings url m) (r : Registry) :
    (events.foldl step r).maps.get? url = r.maps.get? url := by
  induction events generalizing r with
  | nil => rfl
  | cons e rest ih =>
    obtain ⟨he, hrest⟩ := List.forall_mem_cons.mp h
    rw [List.foldl_cons, ih hrest, get?_step_of_not_brings he]

/-- **The last map that events bring for an address**: no event after the one that brings it brings
another one for that address. -/
def Latest (url : String) (m : SourceMap) (events : List RegistryEvent) : Prop :=
  ∃ before e after, events = before ++ e :: after ∧ e.Brings url m ∧
    ∀ e' ∈ after, ∀ m', ¬ e'.Brings url m'

/-- **An address has the last map that was brought for it.** -/
theorem Latest.get?_run (h : Latest url m events) : (run events).maps.get? url = some m := by
  obtain ⟨before, e, after, rfl, hbrings, hafter⟩ := h
  rw [run, List.foldl_append, List.foldl_cons, get?_foldl_of_not_brings hafter,
    hbrings.get?_step]

/-- If any event brings a map, one of them does so last. -/
theorem not_brings_of_not_latest (h : ¬ ∃ m, Latest url m events) :
    ∀ e ∈ events, ∀ m, ¬ e.Brings url m := by
  induction events with
  | nil => exact List.forall_mem_nil _
  | cons e rest ih =>
    have hrest : ∀ e' ∈ rest, ∀ m, ¬ e'.Brings url m := by
      refine ih fun ⟨m, before, e', after, heq, hbrings, hafter⟩ => h ?_
      exact ⟨m, e :: before, e', after, by rw [heq, List.cons_append], hbrings, hafter⟩
    exact List.forall_mem_cons.mpr ⟨fun m hm => h ⟨m, [], e, rest, rfl, hm, hrest⟩, hrest⟩

/-- **An address is answered from the last map that was brought for it**, and with nothing if none
was.  An event that brings none for it leaves its answers alone; a text brings one just when it is
accepted; a request is aborted just when its type is ignored, and then nothing is fetched and the
registry stays as it is. -/
theorem resolve_run (events : List RegistryEvent) (url : String) :
    (∀ m, Latest url m events → ∀ line column,
      (run events).resolve url line column = m.resolve line column) ∧
    ((¬ ∃ m, Latest url m events) → ∀ line column,
      (run events).resolve url line column = .ok .empty) ∧
    (∀ e : RegistryEvent, (∀ m, ¬ e.Brings url m) → ∀ line column,
      (run (events ++ [e])).resolve url line column = (run events).resolve url line column) ∧
    (∀ data, ((run events).addMap url data).1 = true ↔ ∃ m, (addMap url data).Brings url m) ∧
    ∀ settings network target type,
      ((Request.handle settings (run events) network target type).1 = .abort ↔
        type ∈ settings.ignoredRequestTypes) ∧
      (type ∈ settings.ignoredRequestTypes →
        Request.fetches settings type = false ∧ ∀ network',
          Request.handle settings (run events) network' target type = (.abort, run events)) := by
  refine ⟨fun m hm line column => ?_, fun hnone line column => ?_, fun e he line column => ?_,
    addMap_fst_iff (run events) url, fun settings network target type => ⟨?_, fun h => ⟨?_, ?_⟩⟩⟩
  · rw [Registry.resolve_eq_elim, hm.get?_run]
    rfl
  · rw [Registry.resolve_eq_elim, run,
      get?_foldl_of_not_brings (not_brings_of_not_latest hnone)]
    rfl
  · rw [Registry.resolve_eq_elim, Registry.resolve_eq_elim, run, List.foldl_concat,
      get?_step_of_not_brings he, run]
  · exact Request.handle_abort_iff (run events) network target
  · exact Request.not_fetches_of_ignored h
  · exact fun network' => Request.handle_of_ignored h (run events) network' target

/-- A network on which one script has a map. -/
def mapServer : Network := fun url =>
  if url = "/app.js.map" then some ⟨200, some (Sample.identity "src/a.ts" 2 3)⟩ else none

/-- The events after which the script of `mapServer` keeps the map that was fetched for it: a text
that is no map, a script's address, a network that is down, a type that is ignored, another
address. -/
def laterEvents : List RegistryEvent :=
  [addMap "/app.js" "oops", addScript "7" "/app.js", request {} (fun _ => none) "/app.js" "script",
    request { ignoredRequestTypes := ["script"] } mapServer "/app.js" "script",
    insertMap "/other.js" {}]

/-- The script gets a map of one place, then the one that is fetched, and keeps it. -/
def fetchedEvents : List RegistryEvent :=
  [addMap "/app.js" (Sample.identity "src/old.ts" 1 1), request {} mapServer "/app.js" "script"] ++
    laterEvents

theorem resolve_run_fetchedEvents : ∃ m,
    SourceMap.parse (Sample.identity "src/a.ts" 2 3) = .ok m ∧ Latest "/app.js" m fetchedEvents ∧
      (run fetchedEvents).resolve "/app.js" 2 9 = .ok ⟨2, 3, "src/a.ts"⟩ := by
  have htwo : 2 ≤ Json.maxIndex := by decide
  have hthree : 3 ≤ Json.maxIndex := by decide
  obtain ⟨m, hparse, hlookup⟩ := Sample.parse_identity "src/a.ts" htwo hthree
  have hbrings : (request {} mapServer "/app.js" "script").Brings "/app.js" m :=
    .script (by decide) rfl rfl rfl hparse
  have hlater : ∀ e ∈ laterEvents, ∀ m, ¬ e.Brings "/app.js" m := by
    simp only [laterEvents, List.forall_mem_cons]
    refine ⟨?_, ?_, ?_, ?_, ?_, List.forall_mem_nil _⟩
    · rintro m ⟨h⟩
      cases h
    · exact fun m h => absurd h.address (by decide)
    · rintro m (_ | _ | ⟨-, hnetwork⟩)
      cases hnetwork
    · rintro m (_ | _ | ⟨hsettings⟩)
      exact hsettings (by decide)
    · exact fun m h => absurd h.address (by decide)
  have hlatest : Latest "/app.js" m fetchedEvents :=
    ⟨[addMap "/app.js" (Sample.identity "src/old.ts" 1 1)], _, laterEvents, rfl, hbrings, hlater⟩
  refine ⟨m, hparse, hlatest, ((resolve_run fetchedEvents "/app.js").1 m hlatest 2 9).trans ?_⟩
  simp only [SourceMap.resolve, hlookup]
  decide

end RegistryEvent

end ConsoleLens
