import ConsoleLens.Proofs.Console.Attribution

/-!
# Proofs/Console/Location — a function and a call at one place have one location

Two ways lead from a place in a script to the text of its original line.  An entry comes from the
typed frame of an event, and a value that is a place has its numbers in JSON:

    frame  ──next──▸  resolve  ──addressPath, then location──▸  source:line
    value  ──oneBased──▸  resolve  ──addressPath, then place?──▸  source:line

Below the largest index both count one more and resolve the same place (`place?_eq`).  So where the
entry has a source **the texts are the same** (`title_eq_location`), for every registry, map and
spelling of the source.
-/

namespace ConsoleLens

open Json

/-- The text of a resolved place: the path of its source, and its line. -/
def Position.pathText? (p : Position) : Option String :=
  if p.isEmpty then none else some (addressPath p.source ++ ":" ++ toString p.line)

/-- **The location of an entry is the text of its resolved place.** -/
theorem LogEntry.pathText?_resolve {frame : CallFrame} {registry : Registry} {original : Position}
    (hline : frame.lineNumber < maxIndex) (hcolumn : frame.columnNumber < maxIndex)
    (horiginal : originalOf frame registry = .ok original) (hsource : original.source ≠ "") :
    ∃ place,
      registry.resolve frame.url (frame.lineNumber + 1) (frame.columnNumber + 1) = .ok place ∧
      place.pathText? = some original.location := by
  rw [originalOf, next_of_lt hline, next_of_lt hcolumn] at horiginal
  obtain ⟨place, hplace, hmade⟩ := bind_eq_ok.mp horiginal
  obtain rfl := Except.ok.inj hmade
  refine ⟨place, hplace, ?_⟩
  rw [Position.pathText?]
  split at hsource
  · next hempty => exact absurd (String.isEmpty_iff.mp hempty) hsource
  · next hknown =>
    rw [if_neg hknown, if_neg hknown]
    rfl

namespace Formatter

/-- **A value is a place in a script**: its subtype says so, and `place` says where. -/
structure IsPlace (v : RemoteObject) (place : Json) : Prop where
  subtype : v.hasSubtype placeSubtype = true
  value : v.value = some place

/-- The number that a member of a place gives. -/
def wordOf? (place : Json) (name : String) : Option Nat := (place.member? name).bind word?

/-- **The script of a place has the address `url`**: it is registered under it, or it is not known
and `url` is assumed. -/
inductive InScript (f : Formatter) (r : Registry) (place : Json) (url : String) : Prop where
  | registered {id : String} (hid : place.member? "scriptId" = some (.string id))
      (hurl : r.scriptUrl? id = some url)
  | unknown (hid : ∀ id, place.member? "scriptId" = some (.string id) → r.scriptUrl? id = none)
      (hurl : f.fallbackUrl = some url)

variable {f : Formatter} {r : Registry} {v : RemoteObject} {place : Json} {url : String}

/-- The address that is looked up for a place's script. -/
theorem InScript.lookup (h : f.InScript r place url) :
    (((place.member? "scriptId").bind text?).bind r.scriptUrl?).or f.fallbackUrl = some url := by
  cases h with
  | registered hid hurl => rw [hid, Option.bind_some, text?, Option.bind_some, hurl, Option.some_or]
  | unknown hid hurl =>
    have hnone : ((place.member? "scriptId").bind text?).bind r.scriptUrl? = none := by
      cases hmember : place.member? "scriptId" with
      | none => rfl
      | some j =>
        cases j with
        | string id => exact hid id hmember
        | _ => rfl
    rw [hnone, Option.none_or, hurl]

/-- **What a place is shown as** is known by its line, its column and its script. -/
theorem place?_eq (h : IsPlace v place) : f.place? v = f.registry.bind fun r =>
    (wordOf? place "lineNumber").bind fun line =>
      ((((place.member? "scriptId").bind text?).bind r.scriptUrl?).or f.fallbackUrl).bind fun url =>
        let column := (wordOf? place "columnNumber").getD 0
        if line > maxIndex ∨ column > maxIndex then none
        else (do r.resolve url (← oneBased line) (← oneBased column)).toOption.bind
          Position.pathText? := by
  rw [place?, h.value]
  refine bind_congr fun r => ?_
  rw [Option.bind_eq_bind, Option.bind_some]
  refine bind_congr fun line => bind_congr fun url => ?_
  dsimp only [wordOf?]
  split
  · rfl
  · refine bind_congr fun place => ?_
    rw [Position.pathText?]
    split <;> rfl

theorem title_of_isPlace (h : IsPlace v place) :
    f.title v = (f.place? v).getD (Preview.fallback v.className v.description) := by
  rw [title, if_pos h.subtype]

/-- **A value that is a place has the location of a call at that place.**  Its line and column are
those of a frame, and its script has the frame's address; where the entry of the frame has a source,
the value is shown as the entry's location.  And a place without a column is shown as it would be
with column 0. -/
theorem title_eq_location (h : IsPlace v place) :
    (∀ (r : Registry) (event : ConsoleEvent) (frame : CallFrame) (entry : LogEntry),
      f.registry = some r → event.innermostFrame = some frame →
      frame.lineNumber < maxIndex → frame.columnNumber < maxIndex →
      LogEntry.ofEvent? event r = .ok (some entry) → entry.originalPosition.source ≠ "" →
      wordOf? place "lineNumber" = some frame.lineNumber →
      (wordOf? place "columnNumber").getD 0 = frame.columnNumber →
      f.InScript r place frame.url → f.title v = entry.location) ∧
    ∀ place', place.member? "columnNumber" = none → wordOf? place' "columnNumber" = some 0 →
      place'.member? "lineNumber" = place.member? "lineNumber" →
      place'.member? "scriptId" = place.member? "scriptId" →
      f.title v = f.title { v with value := some place' } := by
  constructor
  · intro r event frame entry hr hframe hline hcolumn hentry hsource hlineOf hcolumnOf hscript
    have horiginal := LogEntry.originalOf_of_ofEvent? hframe hentry
    obtain ⟨original, hresolve, htext⟩ :=
      LogEntry.pathText?_resolve hline hcolumn horiginal hsource
    have hrange : ¬ (frame.lineNumber > maxIndex ∨ frame.columnNumber > maxIndex) := by omega
    have hplace : f.place? v = some entry.location := by
      rw [place?_eq h, hr, hlineOf, Option.bind_some, Option.bind_some, hscript.lookup,
        Option.bind_some, hcolumnOf, if_neg hrange, oneBased_of_lt hline, oneBased_of_lt hcolumn]
      change (r.resolve frame.url (frame.lineNumber + 1)
        (frame.columnNumber + 1)).toOption.bind _ = _
      rw [hresolve]
      exact htext
    rw [title_of_isPlace h, hplace, Option.getD_some]
  · intro place' hnone hzero hline hscript
    have h' : IsPlace { v with value := some place' } place' := ⟨h.subtype, rfl⟩
    have hcolumn : (wordOf? place "columnNumber").getD 0 =
        (wordOf? place' "columnNumber").getD 0 := by rw [hzero, wordOf?, hnone]; rfl
    have hplace : f.place? v = f.place? { v with value := some place' } := by
      have hword : wordOf? place' "lineNumber" = wordOf? place "lineNumber" :=
        congrArg (·.bind word?) hline
      rw [place?_eq h, place?_eq h', hcolumn, hscript, hword]
    rw [title_of_isPlace h, title_of_isPlace h', hplace]

/-- A script whose fifth line was written at line 12 of a source, registered as `31`. -/
def utilRegistry : Registry :=
  let original : Original := { source := 0, line := 11, column := 0 }
  let lines : MappingLines := [[], [], [], [], [{ generatedColumn := 0, original := some original }]]
  (Registry.empty.insertMap "/app.js" { sources := ["webpack:///src/util.ts"], lines }).addScript
    "31" "/app.js"

/-- A function in the fifth line of a script. -/
def functionIn (id : String) : RemoteObject where
  kind := .object
  subtype := some placeSubtype
  value := some (.object [("lineNumber", .ofNat 4), ("scriptId", .string id)])

/-- A call in the first column of the fifth line. -/
def utilCall : ConsoleEvent where
  kind := .log
  stackTrace := some { callFrames := [{ url := "/app.js", lineNumber := 4, columnNumber := 0 }] }

/-- The function is shown with the location of the call, be its script known or assumed. -/
theorem title_eq_location_functionIn :
    ∃ entry, LogEntry.ofEvent? utilCall utilRegistry = .ok (some entry) ∧
      entry.location = "/src/util.ts:12" ∧
      title { registry := some utilRegistry } (functionIn "31") = entry.location ∧
      title { registry := some utilRegistry, fallbackUrl := some "/app.js" } (functionIn "99") =
        entry.location := by
  have hplace (id : String) : IsPlace (functionIn id) _ := ⟨rfl, rfl⟩
  refine ⟨_, rfl, by decide +kernel, ?_, ?_⟩
  · exact (title_eq_location (hplace "31")).1 utilRegistry utilCall _ _ rfl rfl (by decide)
      (by decide) rfl (by decide +kernel) (by decide +kernel) rfl (.registered rfl (by decide))
  · exact (title_eq_location (hplace "99")).1 utilRegistry utilCall _ _ rfl rfl (by decide)
      (by decide) rfl (by decide +kernel) (by decide +kernel) rfl
      (.unknown (fun id hid => by cases hid; decide) rfl)

end Formatter

end ConsoleLens
