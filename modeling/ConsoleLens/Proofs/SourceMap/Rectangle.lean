import ConsoleLens.Proofs.Console.Attribution
import ConsoleLens.Proofs.Json.Text
import ConsoleLens.Proofs.SourceMap.Line
import ConsoleLens.Proofs.SourceMap.Written
import ConsoleLens.SourceMap.Sample

/-!
# Proofs/SourceMap/Rectangle — the map that takes a rectangle of places to itself

The text of the identity is built segment by segment, in steps.  Its mappings are the rows of the
rectangle (`Mapping.encodeLinesFrom_rows`): the first segment of a line steps back over the whole
line before it, and every other one steps a column on.  **Each place of the rectangle is resolved to
itself, a place to the right of it to the last column, and every other place to nothing**
(`Registry.resolve_identity`).
-/

namespace ConsoleLens

open Json

/-! ## Rows -/

namespace Mapping

/-- The mapping of a place to itself, in the first source. -/
def ofPlace (line column : Nat) : Mapping := ⟨column, some ⟨0, line, column, none⟩⟩

/-- The mappings of a line of the rectangle. -/
def row (columns line : Nat) : List Mapping := (List.range columns).map (ofPlace line)

/-- The mappings of the lines of the rectangle. -/
def rows (lines columns : Nat) : MappingLines := (List.range lines).map (row columns)

theorem row_succ (columns line : Nat) :
    row (columns + 1) line = row columns line ++ [ofPlace line columns] := by
  rw [row, List.range_succ, List.map_append]
  rfl

theorem take_row {k columns : Nat} (h : k ≤ columns) (line : Nat) :
    (row columns line).take k = row k line := by
  rw [row, ← List.map_take, List.take_range, Nat.min_eq_left h, row]

theorem take_rows {n lines : Nat} (h : n ≤ lines) (columns : Nat) :
    (rows lines columns).take n = rows n columns := by
  rw [rows, ← List.map_take, List.take_range, Nat.min_eq_left h, rows]

theorem getElem_row {columns line k : Nat} (h : k < (row columns line).length) :
    (row columns line)[k] = ofPlace line k := by
  simp [row]

theorem getElem_rows {lines columns n : Nat} (h : n < (rows lines columns).length) :
    (rows lines columns)[n] = row columns n := by
  simp [rows]

theorem flatten_rows_succ (n columns : Nat) :
    (rows (n + 1) columns).flatten = (rows n columns).flatten ++ row columns n := by
  simp [rows, List.range_succ]

/-! ## The segments of the rows -/

/-- The fields of a place are the differences to the place before it. -/
theorem fieldsAfter_concat (before line : List Mapping) (l c n k : Nat) :
    fieldsAfter (before ++ [ofPlace l c]) line (ofPlace n k) =
      [(k : Int) - latestColumn line, 0, (n : Int) - l, (k : Int) - c] := by
  simp only [fieldsAfter, numbers, List.filterMap_cons, List.filterMap_nil, latest_concat]
  rfl

/-- **The segment of a place**: the first one of a line steps back to the first column, and every
other one a column on. -/
theorem fieldsAfter_ofPlace {n k columns : Nat} (hk : k < columns) :
    fieldsAfter ((rows n columns).flatten ++ row k n) (row k n) (ofPlace n k) =
      if k = 0 then [0, 0, if n = 0 then 0 else 1, if n = 0 then 0 else -((columns : Int) - 1)]
      else [1, 0, 0, 1] := by
  cases k with
  | zero =>
    have hrow : row 0 n = [] := rfl
    rw [if_pos rfl, hrow, List.append_nil]
    cases n with
    | zero => rfl
    | succ n =>
      obtain ⟨c, rfl⟩ := Nat.exists_eq_add_of_lt hk
      rw [Nat.zero_add, flatten_rows_succ, row_succ, ← List.append_assoc, fieldsAfter_concat]
      have hfirst : ((0 : Nat) : Int) - latestColumn [] = 0 := rfl
      have hline : ((n + 1 : Nat) : Int) - n = 1 := by omega
      have hback : ((0 : Nat) : Int) - c = -(((c + 1 : Nat) : Int) - 1) := by omega
      rw [hfirst, hline, hback, if_neg (Nat.succ_ne_zero n), if_neg (Nat.succ_ne_zero n)]
  | succ k =>
    rw [if_neg (Nat.succ_ne_zero k), row_succ, ← List.append_assoc, fieldsAfter_concat,
      latestColumn_concat]
    have hstep : ((k + 1 : Nat) : Int) - k = 1 := by omega
    change [((k + 1 : Nat) : Int) - k, 0, (n : Int) - n, ((k + 1 : Nat) : Int) - k] = _
    rw [hstep, Int.sub_self]

theorem encodeLine_row (columns n : Nat) :
    encodeLine (rows n columns).flatten (row columns n) = Sample.identityLine columns n := by
  rw [encodeLine, Sample.identityLine]
  congr 1
  refine List.ext_getElem (by simp [segmentsFrom, row]) fun k hk hk' => ?_
  have hcolumn : k < columns := by simpa using hk'
  simp only [segmentsFrom, List.getElem_mapIdx, List.nil_append, take_row hcolumn.le,
    List.getElem_map, List.getElem_range, getElem_row, fieldsAfter_ofPlace hcolumn]
  split <;> rfl

/-- **The lines of the identity spell the rows of the rectangle.** -/
theorem encodeLinesFrom_rows (lines columns : Nat) :
    encodeLinesFrom [] (rows lines columns) =
      (List.range lines).map (Sample.identityLine columns) := by
  refine List.ext_getElem (by simp [encodeLinesFrom, rows]) fun n hn hn' => ?_
  have hline : n < lines := by simpa using hn'
  simp only [encodeLinesFrom, List.getElem_mapIdx, List.nil_append, take_rows hline.le,
    List.getElem_map, List.getElem_range, getElem_rows, encodeLine_row]

theorem fits_ofPlace {line column : Nat} (hline : line ≤ maxIndex) (hcolumn : column ≤ maxIndex) :
    (ofPlace line column).Fits := by
  refine ⟨hcolumn, fun number hnumber n hn => ?_⟩
  simp only [numbers, List.mem_cons, List.not_mem_nil, or_false] at hnumber
  obtain rfl | rfl | rfl | rfl := hnumber
  · obtain rfl := Option.some.inj hn
    exact Nat.zero_le _
  · obtain rfl := Option.some.inj hn
    exact hline
  · obtain rfl := Option.some.inj hn
    exact hcolumn
  · cases hn

theorem pairwise_row (columns line : Nat) :
    (row columns line).Pairwise (·.generatedColumn ≤ ·.generatedColumn) := by
  rw [row, List.pairwise_map]
  exact List.pairwise_lt_range.imp Nat.le_of_lt

/-- **The mappings of the identity are the rows**; no text at all is one line without mappings. -/
theorem decode_identity {lines columns : Nat} (hlines : lines ≤ maxIndex)
    (hcolumns : columns ≤ maxIndex) :
    ∃ read, decode ([';'].intercalate ((List.range lines).map (Sample.identityLine columns))) =
      .ok read ∧ ∀ n, read.getD n [] = if n < lines then row columns n else [] := by
  rw [← encodeLinesFrom_rows]
  cases lines with
  | zero =>
    refine ⟨[[]], ?_, fun n => ?_⟩
    · change ofLines {} (encodeLinesFrom [] [[]]) = _
      exact ofLines_encodeLinesFrom Cursor.follows_nil (List.forall_mem_nil _) (by simp) (by simp)
    · rw [if_neg (Nat.not_lt_zero n)]
      cases n <;> rfl
  | succ lines =>
    have hne : encodeLinesFrom [] (rows (lines + 1) columns) ≠ [] := by
      simp [encodeLinesFrom, rows]
    have hsemicolon : ∀ part ∈ encodeLinesFrom [] (rows (lines + 1) columns), ';' ∉ part := by
      intro part hpart
      obtain ⟨n, hn, rfl⟩ := List.mem_mapIdx.mp hpart
      exact semicolon_notMem_encodeLine _ _
    refine ⟨rows (lines + 1) columns, ?_, fun n => ?_⟩
    · rw [decode, Text.split_intercalate hne hsemicolon]
      refine ofLines_encodeLinesFrom Cursor.follows_nil (List.forall_mem_nil _) ?_ ?_
      · simp only [rows, row, List.forall_mem_map, List.mem_range]
        intro n hn k hk
        exact fits_ofPlace (by omega) (by omega)
      · simp only [rows, List.forall_mem_map]
        exact fun n _ => pairwise_row columns n
    · rw [List.getD_eq_getElem?_getD, rows, List.getElem?_map]
      split
      · next hn => rw [List.getElem?_range hn]; rfl
      · next hn => rw [List.getElem?_eq_none (by simpa using hn)]; rfl

end Mapping

/-! ## Looking a place up -/

theorem takeWhile_range_lt (n k : Nat) :
    (List.range n).takeWhile (· < k) = List.range (min n k) := by
  induction n generalizing k with
  | zero => rw [Nat.zero_min]; rfl
  | succ n ih =>
    cases k with
    | zero => simp [List.range_succ_eq_map]
    | succ k =>
      rw [Nat.succ_min_succ, List.range_succ_eq_map, List.range_succ_eq_map, ← ih]
      simp [List.takeWhile_map, Function.comp_def]

namespace SourceMap

/-- What is looked up on a line of the rectangle: the last column stands for all that follow. -/
theorem mappingAt?_row (columns line column : Nat) :
    mappingAt? (Mapping.row columns line) column =
      if columns = 0 then none else some (Mapping.ofPlace line (min column (columns - 1))) := by
  have hlt : ((fun m => decide (m.generatedColumn ≤ column)) ∘ Mapping.ofPlace line) =
      fun c => decide (c < column + 1) :=
    funext fun c => decide_eq_decide.mpr Nat.lt_succ_iff.symm
  rw [mappingAt?, Mapping.row, List.takeWhile_map, hlt, takeWhile_range_lt, List.getLast?_map,
    List.getLast?_range]
  split
  · next h => rw [if_pos (by omega), Option.map_none]
  · next h =>
    have hmin : min columns (column + 1) - 1 = min column (columns - 1) := by omega
    rw [if_neg (by omega), Option.map_some, hmin]

end SourceMap

namespace Sample

/-- The record that the text of a map holds. -/
theorem read?_mapText (source : String) (mappings : List Char) :
    MapDocument.read? (mapText source mappings) =
      some { version := 3, sources := [some source], mappings := String.ofList mappings } := by
  have hread : Json.read? (mapText source mappings) = some (.object
      [("mappings", .string (String.ofList mappings)), ("names", .array []),
        ("sources", .array [.string source]), ("version", .ofNat 3)]) := by
    refine (read?_render_iff rfl ?_).mpr ?_
    · simp only [Spelled, MembersSpelled, ItemsSpelled, ofNat, String.toList_ofList, and_true,
        isLiteral_decimal]
    · change (2 : Nat) ≤ 127
      decide
  rw [MapDocument.read?, hread, Option.bind_some]
  unfold MapDocument.ofJson?
  split
  · next h => cases h
  · next r hr =>
    cases hr
    rfl

/-- **The map of the identity**, and what is looked up in it, all counted from 0. -/
theorem parse_identity (source : String) {lines columns : Nat} (hlines : lines ≤ maxIndex)
    (hcolumns : columns ≤ maxIndex) :
    ∃ m, SourceMap.parse (identity source lines columns) = .ok m ∧ ∀ line column,
      m.lookup? line column =
        if line < lines ∧ 1 ≤ columns then some ⟨source, line, min column (columns - 1), none⟩
        else none := by
  obtain ⟨read, hread, hrows⟩ := Mapping.decode_identity hlines hcolumns
  refine ⟨⟨[source], [], read⟩, ?_, fun line column => ?_⟩
  · refine SourceMap.parse_eq_ok.mpr ⟨_, read?_mapText source _, ?_⟩
    rw [SourceMap.ofDocument, String.toList_ofList, hread]
    rfl
  · rw [SourceMap.lookup?_eq_bind, SourceMap.line, hrows]
    by_cases hline : line < lines
    · rw [if_pos hline, SourceMap.mappingAt?_row]
      by_cases hcolumns : 1 ≤ columns
      · rw [if_neg (Nat.ne_of_gt hcolumns), if_pos ⟨hline, hcolumns⟩]
        rfl
      · rw [if_pos (by omega), if_neg fun h => hcolumns h.2]
        rfl
    · rw [if_neg hline, if_neg fun h => hline h.1]
      rfl

end Sample

/-! ## Resolving -/

namespace Registry

/-- **A place of the rectangle is resolved to itself**, a place to the right of the rectangle to the
last column of its line, and every other place to nothing. -/
theorem resolve_identity (r : Registry) (url source : String) {lines columns : Nat}
    (hlines : lines ≤ maxIndex) (hcolumns : columns ≤ maxIndex) :
    ∃ r', r.addMap url (Sample.identity source lines columns) = (true, r') ∧
      ∀ line column, 1 ≤ line → 1 ≤ column →
        r'.resolve url line column = .ok (
          if line ≤ lines ∧ column ≤ columns then ⟨line, column, source⟩
          else if line ≤ lines ∧ 1 ≤ columns ∧ columns < column then ⟨line, columns, source⟩
          else .empty) := by
  obtain ⟨m, hparse, hlookup⟩ := Sample.parse_identity source hlines hcolumns
  refine ⟨_, addMap_of_parse hparse r url, fun line column hl hc => ?_⟩
  obtain ⟨line, rfl⟩ := Nat.exists_eq_add_of_le' hl
  obtain ⟨column, rfl⟩ := Nat.exists_eq_add_of_le' hc
  rw [resolve_succ, find?_insertMap_self, hlookup]
  by_cases hin : line < lines ∧ 1 ≤ columns
  · obtain ⟨hline, hcolumn⟩ := hin
    have hlast : min column (columns - 1) < maxIndex := by omega
    rw [if_pos ⟨hline, hcolumn⟩, Option.map_some, Option.getD_some, Lookup.position_eq,
      if_pos ⟨Nat.lt_of_lt_of_le hline hlines, hlast⟩]
    by_cases hinside : column + 1 ≤ columns
    · have hmin : min column (columns - 1) + 1 = column + 1 := by omega
      rw [if_pos ⟨hline, hinside⟩, hmin]
    · have hmin : min column (columns - 1) + 1 = columns := by omega
      rw [if_neg fun h => hinside h.2, if_pos ⟨hline, hcolumn, by omega⟩, hmin]
  · rw [if_neg hin, if_neg (by omega), if_neg (by omega)]
    rfl

/-- Two lines of three columns, asked for inside, to the right and below. -/
theorem resolve_identity_twoLines : 2 ≤ maxIndex ∧ 3 ≤ maxIndex ∧
    ∃ r', Registry.empty.addMap "/app.js" (Sample.identity "src/a.ts" 2 3) = (true, r') ∧
      r'.resolve "/app.js" 2 2 = .ok ⟨2, 2, "src/a.ts"⟩ ∧
      r'.resolve "/app.js" 2 9 = .ok ⟨2, 3, "src/a.ts"⟩ ∧
      r'.resolve "/app.js" 3 1 = .ok .empty := by
  have htwo : 2 ≤ maxIndex := by decide
  have hthree : 3 ≤ maxIndex := by decide
  obtain ⟨r', hadd, hresolve⟩ := resolve_identity .empty "/app.js" "src/a.ts" htwo hthree
  exact ⟨htwo, hthree, r', hadd, hresolve 2 2 (by decide) (by decide),
    hresolve 2 9 (by decide) (by decide), hresolve 3 1 (by decide) (by decide)⟩

end Registry

end ConsoleLens
