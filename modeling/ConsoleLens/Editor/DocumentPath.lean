import ConsoleLens.Text.Split

/-!
# Editor/DocumentPath — the paths of documents

A path is shown as it was written and compared by its components: a slash twice, a slash at the end
and a dot between slashes do not count, **two dots and a dot in front of a relative path do**.
-/

namespace ConsoleLens

/-- A path as it was written. -/
structure DocumentPath where
  text : String

namespace DocumentPath

/-- Whether a path starts at the root. -/
def isAbsolute (p : DocumentPath) : Bool := p.text.toList.head? == some '/'

/-- The names of a path that count. -/
def names (p : DocumentPath) : List (List Char) :=
  let parts := Text.splitNonempty '/' p.text.toList
  match parts with
  | [] => []
  | first :: rest =>
    let dotCounts := !p.isAbsolute && first == ['.']
    (if dotCounts then [first] else [first].filter (· ≠ ['.'])) ++ rest.filter (· ≠ ['.'])

/-- **What a path is compared by.** -/
def components (p : DocumentPath) : Bool × List (List Char) := (p.isAbsolute, p.names)

instance : BEq DocumentPath := ⟨fun p q => p.components == q.components⟩

/-- A relative path below another, with a slash between them unless one is there. -/
def join (root : DocumentPath) (relative : List Char) : DocumentPath :=
  let cs := root.text.toList
  let slash := if cs.isEmpty || cs.getLast? == some '/' then [] else ['/']
  ⟨String.ofList (cs ++ slash ++ relative)⟩

end DocumentPath

end ConsoleLens
