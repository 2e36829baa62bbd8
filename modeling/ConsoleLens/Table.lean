/-!
# Table — values by key, in the order in which the keys came

A key has one value; **putting a value to a key that is there replaces the value in its place**, and
a new key goes to the end.
-/

namespace ConsoleLens

/-- Values by key, each key once. -/
structure Table (κ : Type) (α : Type) where
  entries : List (κ × α) := []
  deriving DecidableEq

namespace Table

variable {κ α : Type} [DecidableEq κ]

/-- The table without keys. -/
def empty : Table κ α := ⟨[]⟩

/-- The value of a key among entries. -/
def find? (k : κ) : List (κ × α) → Option α
  | [] => none
  | (k', a) :: rest => if k = k' then some a else find? k rest

/-- The entries with a value put to a key. -/
def put (k : κ) (a : α) : List (κ × α) → List (κ × α)
  | [] => [(k, a)]
  | (k', a') :: rest => if k = k' then (k', a) :: rest else (k', a') :: put k a rest

/-- The value of a key. -/
def get? (t : Table κ α) (k : κ) : Option α := find? k t.entries

/-- Whether a key has a value. -/
def contains (t : Table κ α) (k : κ) : Bool := (t.get? k).isSome

/-- The table with a value put to a key. -/
def insert (t : Table κ α) (k : κ) (a : α) : Table κ α := ⟨put k a t.entries⟩

/-- The keys in the order in which they came. -/
def keys (t : Table κ α) : List κ := t.entries.map (·.1)

theorem find?_put (k k' : κ) (a : α) (entries : List (κ × α)) :
    find? k' (put k a entries) = if k' = k then some a else find? k' entries := by
  induction entries with
  | nil => simp [put, find?]
  | cons e rest ih =>
    obtain ⟨k₀, a₀⟩ := e
    simp only [put]
    split
    · subst_vars
      simp only [find?]
      split <;> rfl
    · simp only [find?, ih]
      split
      · split
        · simp_all
        · rfl
      · rfl

@[simp] theorem get?_empty (k : κ) : (empty : Table κ α).get? k = none := rfl

/-- **A key has the value put last.** -/
@[simp] theorem get?_insert (t : Table κ α) (k k' : κ) (a : α) :
    (t.insert k a).get? k' = if k' = k then some a else t.get? k' :=
  find?_put k k' a t.entries

end Table

end ConsoleLens
