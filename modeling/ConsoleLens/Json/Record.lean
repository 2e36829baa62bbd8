import ConsoleLens.Json.Basic

/-!
# Json/Record — the declared fields of a value

A record is written as an object, whose other members are ignored, or as an array of its fields in
declaration order.  **A declared name that occurs twice is refused, and so is an array with an item
too many.**  How a missing field counts is the reader's choice: `required`, `optional`, `orElse`.
-/

namespace ConsoleLens.Json

/-! ## Single values -/

/-- The largest line, column or index. -/
def maxIndex : Nat := 4294967295

/-- The largest word of 64 bits. -/
def maxWord : Nat := 18446744073709551615

/-- A natural up to `limit`, written as plain digits. -/
def nat? (limit : Nat) : Json → Option Nat
  | .number literal => (Digits.decimal? literal.toList).filter (· ≤ limit)
  | _ => none

/-- A line, a column or an index. -/
def index? : Json → Option Nat := nat? maxIndex

/-- A truth value. -/
def bool? : Json → Option Bool
  | .bool b => some b
  | _ => none

/-- A text. -/
def text? : Json → Option String
  | .string s => some s
  | _ => none

/-- A list of values of one kind. -/
def list? (read : Json → Option α) : Json → Option (List α)
  | .array items => items.mapM read
  | _ => none

/-- A value, or nothing where `null` stands. -/
def nullable? (read : Json → Option α) : Json → Option (Option α)
  | .null => some none
  | j => (read j).map some

/-- A value of any kind, as it is kept. -/
def any? (j : Json) : Option Json := if j.isUsable then some j.canonical else none

/-- The name of a case: a string, or an object that gives the name the value `null`. -/
def caseName? : Json → Option String
  | .string s => some s
  | .object [(name, .null)] => some name
  | _ => none

/-- The member of an object that a name selects. -/
def member? (name : String) : Json → Option Json
  | .object members => members.lookup name
  | _ => none

/-! ## Records -/

/-- The declared fields that a value has, each at most once. -/
abbrev Record := List (String × Json)

/-- Whether a name occurs twice. -/
def hasRepeats : List String → Bool
  | [] => false
  | name :: rest => rest.contains name || hasRepeats rest

/-- **The fields `names` of a value**, read from an object or from an array. -/
def record? (names : List String) : Json → Option Record
  | .object members =>
    let declared := members.filter fun m => names.contains m.1
    if hasRepeats (declared.map (·.1)) then none else some declared
  | .array items => if items.length ≤ names.length then some (names.zip items) else none
  | _ => none

namespace Record

/-- The value of a field. -/
def get? (r : Record) (name : String) : Option Json := r.lookup name

/-- A field that has to be there. -/
def required (r : Record) (name : String) (read : Json → Option α) : Option α :=
  (r.get? name).bind read

/-- A field that may be missing or `null`. -/
def optional (r : Record) (name : String) (read : Json → Option α) : Option (Option α) :=
  match r.get? name with
  | none => some none
  | some j => nullable? read j

/-- A field with a default, which stands only for a missing value. -/
def orElse (r : Record) (name : String) (default : α) (read : Json → Option α) : Option α :=
  match r.get? name with
  | none => some default
  | some j => read j

end Record

/-! ## Members are smaller -/

theorem sizeOf_lt_of_mem {j : Json} {items : List Json} (h : j ∈ items) :
    sizeOf j < sizeOf items :=
  List.sizeOf_lt_of_mem h

theorem sizeOf_snd_lt_of_mem {m : String × Json} {members : List (String × Json)}
    (h : m ∈ members) : sizeOf m.2 < sizeOf members := by
  have := List.sizeOf_lt_of_mem h
  have : sizeOf m = 1 + sizeOf m.1 + sizeOf m.2 := by cases m; rfl
  omega

theorem mem_of_lookup {name : String} {j : Json} {members : List (String × Json)}
    (h : members.lookup name = some j) : (name, j) ∈ members := by
  induction members with
  | nil => simp at h
  | cons m rest ih =>
    obtain ⟨n, v⟩ := m
    rw [List.lookup_cons] at h
    split at h
    · rename_i heq
      have : name = n := by simpa using heq
      simp_all
    · exact List.mem_cons_of_mem _ (ih h)

/-- **A field is smaller than the value that has it**, which is what ends the reading of nested
records. -/
theorem sizeOf_get?_lt {names : List String} {j v : Json} {r : Record} {name : String}
    (hr : j.record? names = some r) (hv : r.get? name = some v) : sizeOf v < sizeOf j := by
  have hmem := mem_of_lookup hv
  cases j with
  | object members =>
    simp only [record?] at hr
    split at hr
    · contradiction
    · cases hr
      have h := sizeOf_snd_lt_of_mem (List.mem_filter.1 hmem).1
      simp only [object.sizeOf_spec] at h ⊢
      omega
  | array items =>
    simp only [record?] at hr
    split at hr
    · cases hr
      have h := sizeOf_lt_of_mem (List.of_mem_zip hmem).2
      simp only [array.sizeOf_spec] at h ⊢
      omega
    · contradiction
  | _ => simp [record?] at hr

end ConsoleLens.Json
