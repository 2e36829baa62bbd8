import ConsoleLens.Console.Entry
import ConsoleLens.Tree.Arena
import ConsoleLens.Tree.PathIndex

/-!
# Tree/Basic — the logged entries, as far as the page has loaded

Until the page has loaded, entries wait.  A load files all of them afresh; from then on they are
filed as they come.  **An entry's identity is its place and the number of entries from the same
place that were filed before it.**
-/

namespace ConsoleLens

/-- Whether entries wait or show. -/
inductive Phase where
  | pending
  | loaded
  deriving DecidableEq

/-- An entry with its identity. -/
structure FiledEntry where
  id : String
  entry : LogEntry

/-- **The logged entries.**  The generation counts how often all that was handed out became
invalid. -/
structure LogTree where
  phase : Phase := .pending
  ready : Bool := true
  generation : Nat := 0
  stored : List FiledEntry := []
  pending : List LogEntry := []
  paths : PathIndex := .empty
  counters : Table String Nat := {}
  arena : Arena := {}

namespace LogTree

/-- The tree without entries, waiting for a load. -/
def empty : LogTree := {}

/-- The entries that show, in the order in which they came. -/
def entries (t : LogTree) : List LogEntry := t.stored.map (·.entry)

/-- How many entries with an identity key were filed before the next one. -/
def nextCount (t : LogTree) (key : String) : Nat :=
  match t.counters.get? key with
  | none => 0
  | some n => n + 1

/-- The identity of the `n`th entry with an identity key. -/
def entryId (key : String) (n : Nat) : String := key ++ "[" ++ toString n ++ "]"

/-- Files an entry. -/
def file (t : LogTree) (entry : LogEntry) : LogTree :=
  let key := entry.key
  let n := t.nextCount key
  { t with
    counters := t.counters.insert key n
    paths := t.paths.insert t.stored.length entry.originalPosition.segments
    stored := t.stored ++ [⟨entryId key n, entry⟩] }

/-- Files entries one after the other. -/
def fileAll (t : LogTree) (entries : List LogEntry) : LogTree := entries.foldl file t

@[simp] theorem fileAll_nil (t : LogTree) : t.fileAll [] = t := rfl

@[simp] theorem fileAll_cons (t : LogTree) (entry : LogEntry) (rest : List LogEntry) :
    t.fileAll (entry :: rest) = (t.file entry).fileAll rest := rfl

/-- Filing changes nothing but what is stored, the counters and the paths. -/
theorem fileAll_eq (t : LogTree) (entries : List LogEntry) :
    t.fileAll entries = { t with
      stored := (t.fileAll entries).stored
      counters := (t.fileAll entries).counters
      paths := (t.fileAll entries).paths } := by
  induction entries generalizing t with
  | nil => rfl
  | cons entry rest ih => rw [fileAll_cons, ih]; rfl

/-- Forgets the entries and everything handed out. -/
def forget (t : LogTree) (phase : Phase) : LogTree :=
  { phase, ready := t.ready, generation := t.generation + 1 }

/-- Whether an addition shows at once. -/
def showsNew (t : LogTree) : Bool := t.phase = .loaded

/-- **Adds entries**: they wait, or they are filed. -/
def add (t : LogTree) (entries : List LogEntry) : LogTree :=
  match t.phase with
  | .pending => { t with pending := t.pending ++ entries }
  | .loaded => t.fileAll entries

/-- **The page has loaded**: every entry is filed afresh. -/
def load (t : LogTree) : LogTree := (t.forget .loaded).fileAll (t.entries ++ t.pending)

/-- Drops everything and waits for the next load. -/
def reset (t : LogTree) : LogTree := t.forget .pending

/-- Drops everything and shows new entries as they come. -/
def clear (t : LogTree) : LogTree := t.forget .loaded

/-- Lets the editor ask for children, or not. -/
def serve (t : LogTree) (ready : Bool) : LogTree := { t with ready }

end LogTree

end ConsoleLens
