import ConsoleLens.Proofs.SourceMap.Digits
import ConsoleLens.SourceMap.Mapping

/-!
# Proofs/SourceMap/Written — mappings written as a text, and read back

A mapping is written as one segment, and each number of it as the difference to **the latest number
of its kind**, 0 before the first:

    generated column                   of the mappings before it on its line
    source, original line and column   of the mappings before it in the text that have an original
    name                               of the mappings before it in the text that have a name

`encode` looks these numbers up among the mappings before.  The decoder adds differences up
instead; `Cursor.Follows` says that its sums are the latest numbers, and **`decode_encode` that the
lines which were written are the lines that are read**.
-/

namespace ConsoleLens.Mapping

/-! ## Writing -/

/-- The source of a mapping. -/
def source? (m : Mapping) : Option Nat := m.original.map (·.source)

/-- The original line of a mapping. -/
def line? (m : Mapping) : Option Nat := m.original.map (·.line)

/-- The original column of a mapping. -/
def column? (m : Mapping) : Option Nat := m.original.map (·.column)

/-- The name of a mapping. -/
def name? (m : Mapping) : Option Nat := m.original.bind (·.name)

/-- The numbers that run through the whole text, in the order in which a segment has them. -/
def numbers : List (Mapping → Option Nat) := [source?, line?, column?, name?]

/-- **The latest number of a kind** among the mappings before, 0 if none of them has one. -/
def latest (number : Mapping → Option Nat) (before : List Mapping) : Nat :=
  ((before.filterMap number).getLast?).getD 0

/-- The latest generated column on a line. -/
def latestColumn (line : List Mapping) : Nat := latest (fun m => some m.generatedColumn) line

/-- **The fields of a mapping's segment**: `text` are the mappings before it and `line` those of
them on its line. -/
def fieldsAfter (text line : List Mapping) (m : Mapping) : List Int :=
  ((m.generatedColumn : Int) - latestColumn line) ::
    numbers.filterMap fun number => (number m).map fun n : Nat => (n : Int) - latest number text

/-- The segments of the rest of a line, `text` and `before` standing in front of it. -/
def segmentsFrom (text before rest : List Mapping) : List (List Char) :=
  rest.mapIdx fun n m => Vlq.encode (fieldsAfter (text ++ rest.take n) (before ++ rest.take n) m)

/-- The text of a line, `text` standing in front of it. -/
def encodeLine (text line : List Mapping) : List Char :=
  [','].intercalate (segmentsFrom text [] line)

/-- The texts of lines, `text` standing in front of them. -/
def encodeLinesFrom (text : List Mapping) (lines : MappingLines) : List (List Char) :=
  lines.mapIdx fun n line => encodeLine (text ++ (lines.take n).flatten) line

/-- **The text that spells mappings**, line by line. -/
def encode (lines : MappingLines) : List Char := [';'].intercalate (encodeLinesFrom [] lines)

/-- Every number of a mapping is an index. -/
def Fits (m : Mapping) : Prop :=
  m.generatedColumn ≤ Json.maxIndex ∧ ∀ number ∈ numbers, ∀ n ∈ number m, n ≤ Json.maxIndex

instance (m : Mapping) : Decidable m.Fits := inferInstanceAs (Decidable (_ ∧ _))

/-! ## The latest numbers -/

theorem latest_concat (number : Mapping → Option Nat) (before : List Mapping) (m : Mapping) :
    latest number (before ++ [m]) = (number m).getD (latest number before) := by
  rw [latest, List.filterMap_append, List.getLast?_append]
  cases h : number m <;> simp [latest, h]

theorem latestColumn_concat (line : List Mapping) (m : Mapping) :
    latestColumn (line ++ [m]) = m.generatedColumn :=
  latest_concat _ line m

theorem latest_le {number : Mapping → Option Nat} {before : List Mapping}
    (h : ∀ m ∈ before, ∀ n ∈ number m, n ≤ Json.maxIndex) :
    latest number before ≤ Json.maxIndex := by
  unfold latest
  cases hlast : (before.filterMap number).getLast? with
  | none => exact Nat.zero_le _
  | some n =>
    obtain ⟨m, hm, hn⟩ := List.mem_filterMap.mp (List.mem_of_getLast? hlast)
    exact h m hm n hn

/-- The sums of a cursor are the latest numbers of the mappings behind it. -/
structure Cursor.Follows (cursor : Cursor) (text : List Mapping) : Prop where
  source : cursor.source = latest source? text
  line : cursor.line = latest line? text
  column : cursor.column = latest column? text
  name : cursor.name = latest name? text

theorem Cursor.follows_nil : Cursor.Follows {} [] := ⟨rfl, rfl, rfl, rfl⟩

/-- The sums after one more mapping: its own numbers, and the old ones where it has none. -/
def Cursor.after (cursor : Cursor) (m : Mapping) : Cursor where
  source := m.source?.elim cursor.source Int.ofNat
  line := m.line?.elim cursor.line Int.ofNat
  column := m.column?.elim cursor.column Int.ofNat
  name := m.name?.elim cursor.name Int.ofNat

theorem Cursor.Follows.after {cursor : Cursor} {text : List Mapping} (h : cursor.Follows text)
    (m : Mapping) : (cursor.after m).Follows (text ++ [m]) := by
  have hnext (number : Mapping → Option Nat) {sum : Int} (hsum : sum = latest number text) :
      (number m).elim sum Int.ofNat = latest number (text ++ [m]) := by
    rw [latest_concat]
    cases number m with
    | none => exact hsum
    | some n => rfl
  exact ⟨hnext source? h.source, hnext line? h.line, hnext column? h.column, hnext name? h.name⟩

/-! ## One segment -/

theorem index_natCast {n : Nat} (h : n ≤ Json.maxIndex) : index (n : Int) = .ok n := by
  rw [index, if_pos ⟨Int.natCast_nonneg n, Int.ofNat_le.mpr h⟩, Int.toNat_natCast]

/-- **The fields of a mapping spell it**, and the sums go on. -/
theorem ofFields_fieldsAfter {cursor : Cursor} {text : List Mapping} (hcursor : cursor.Follows text)
    (line : List Mapping) {m : Mapping} (hm : m.Fits) :
    ofFields cursor (latestColumn line) (fieldsAfter text line m) =
      .ok (m, cursor.after m, (m.generatedColumn : Int)) := by
  obtain ⟨hsource, hline, hcolumn, hname⟩ := hcursor
  obtain ⟨hg, hnumbers⟩ := hm
  have hsum (a b : Int) : a + (b - a) = b := by omega
  have hfits (number : Mapping → Option Nat) (hmem : number ∈ numbers) (n : Nat)
      (hn : number m = some n) : index (n : Int) = .ok n :=
    index_natCast (hnumbers number hmem n hn)
  have hsource? := hfits source? (by simp [numbers])
  have hline? := hfits line? (by simp [numbers])
  have hcolumn? := hfits column? (by simp [numbers])
  have hname? := hfits name? (by simp [numbers])
  -- a segment has one, four or five fields, as its mapping has an original and a name or not
  obtain ⟨g, _ | ⟨s, l, c, _ | n⟩⟩ := m
  · have hfields : fieldsAfter text line ⟨g, none⟩ = [(g : Int) - latestColumn line] := rfl
    rw [hfields, ofFields, hsum, index_natCast hg]
    rfl
  · have hfields : fieldsAfter text line ⟨g, some ⟨s, l, c, none⟩⟩ =
        [(g : Int) - latestColumn line, s - cursor.source, l - cursor.line, c - cursor.column] := by
      rw [hsource, hline, hcolumn]
      rfl
    rw [hfields, ofFields]
    simp only [hsum, index_natCast hg, hsource? s rfl, hline? l rfl, hcolumn? c rfl]
    rfl
  · have hfields : fieldsAfter text line ⟨g, some ⟨s, l, c, some n⟩⟩ =
        [(g : Int) - latestColumn line, s - cursor.source, l - cursor.line, c - cursor.column,
          n - cursor.name] := by
      rw [hsource, hline, hcolumn, hname]
      rfl
    rw [hfields, ofFields]
    simp only [hsum, index_natCast hg, hsource? s rfl, hline? l rfl, hcolumn? c rfl, hname? n rfl]
    rfl

/-- The fields of a mapping fit into words. -/
theorem natAbs_lt_of_mem_fieldsAfter {text line : List Mapping} {m : Mapping} {v : Int}
    (htext : ∀ m ∈ text, m.Fits) (hline : ∀ m ∈ line, m.Fits) (hm : m.Fits)
    (hv : v ∈ fieldsAfter text line m) : v.natAbs < 2 ^ 62 := by
  have hsmall {a b : Nat} (ha : a ≤ Json.maxIndex) (hb : b ≤ Json.maxIndex) :
      ((a : Int) - b).natAbs < 2 ^ 62 := by
    have hmax : Json.maxIndex < 2 ^ 62 := by decide
    omega
  rcases List.mem_cons.mp hv with rfl | hv
  · refine hsmall hm.1 (latest_le fun m' hm' n hn => ?_)
    obtain rfl := Option.some.inj hn
    exact (hline m' hm').1
  · obtain ⟨number, hnumber, hv⟩ := List.mem_filterMap.mp hv
    obtain ⟨n, hn, rfl⟩ := Option.map_eq_some_iff.mp hv
    exact hsmall (hm.2 number hnumber _ hn)
      (latest_le fun m' hm' => (htext m' hm').2 number hnumber)

/-! ## Lines -/

theorem segmentsFrom_cons (text before : List Mapping) (m : Mapping) (rest : List Mapping) :
    segmentsFrom text before (m :: rest) = Vlq.encode (fieldsAfter text before m) ::
      segmentsFrom (text ++ [m]) (before ++ [m]) rest := by
  simp [segmentsFrom, List.mapIdx_cons]

/-- A segment whose fields are known. -/
theorem ofSegments_cons {cursor : Cursor} {generated : Int} {segment : List Char}
    {fields : List Int} (h : Vlq.decode segment = .ok fields) (rest : List (List Char)) :
    ofSegments cursor generated (segment :: rest) = do
      let (mapping, cursor, generated) ← ofFields cursor generated fields
      let (mappings, cursor) ← ofSegments cursor generated rest
      return (mapping :: mappings, cursor) := by
  rw [ofSegments, h]
  rfl

/-- **The segments of a line spell its mappings**, as they stand. -/
theorem ofSegments_segmentsFrom : ∀ {rest text before : List Mapping} {cursor : Cursor},
    cursor.Follows text → (∀ m ∈ text, m.Fits) → (∀ m ∈ before, m.Fits) → (∀ m ∈ rest, m.Fits) →
      ∃ cursor' : Cursor, cursor'.Follows (text ++ rest) ∧
        ofSegments cursor (latestColumn before) (segmentsFrom text before rest) =
          .ok (rest, cursor')
  | [], text, _, cursor, hcursor, _, _, _ => ⟨cursor, (List.append_nil text).symm ▸ hcursor, rfl⟩
  | m :: rest, text, before, cursor, hcursor, htext, hbefore, hrest => by
      have hm : m.Fits := hrest m List.mem_cons_self
      have hconcat {ms : List Mapping} (hms : ∀ m ∈ ms, m.Fits) : ∀ m' ∈ ms ++ [m], m'.Fits := by
        simpa [or_imp, forall_and] using ⟨hms, hm⟩
      obtain ⟨cursor', hfollows, hdecode⟩ := ofSegments_segmentsFrom (hcursor.after m)
        (hconcat htext) (hconcat hbefore) fun m' hm' => hrest m' (List.mem_cons_of_mem m hm')
      refine ⟨cursor', by rwa [List.append_cons], ?_⟩
      have hfields : Vlq.decode (Vlq.encode (fieldsAfter text before m)) =
          .ok (fieldsAfter text before m) :=
        Vlq.decode_encode_of_lt fun v => natAbs_lt_of_mem_fieldsAfter htext hbefore hm
      rw [latestColumn_concat] at hdecode
      rw [segmentsFrom_cons, ofSegments_cons hfields, ofFields_fieldsAfter hcursor before hm]
      simp only [bind, Except.bind, hdecode]
      rfl

/-- A segment is not empty and holds digits only. -/
theorem digits_of_mem_segmentsFrom {text before rest : List Mapping} {segment : List Char}
    (h : segment ∈ segmentsFrom text before rest) :
    segment ≠ [] ∧ ∀ c, Vlq.digitValue? c = none → c ∉ segment := by
  obtain ⟨n, hn, rfl⟩ := List.mem_mapIdx.mp h
  refine ⟨Vlq.encode_ne_nil (List.cons_ne_nil _ _), fun c hnone hc => ?_⟩
  have hsome := Vlq.digitValue?_of_mem_encode hc
  rw [hnone] at hsome
  cases hsome

theorem splitNonempty_encodeLine (text line : List Mapping) :
    Text.splitNonempty ',' (encodeLine text line) = segmentsFrom text [] line :=
  Text.splitNonempty_intercalate fun _ hsegment =>
    ⟨(digits_of_mem_segmentsFrom hsegment).1, (digits_of_mem_segmentsFrom hsegment).2 ',' rfl⟩

theorem semicolon_notMem_encodeLine (text line : List Mapping) : ';' ∉ encodeLine text line :=
  Text.notMem_intercalate (by decide) fun _ hsegment =>
    (digits_of_mem_segmentsFrom hsegment).2 ';' rfl

theorem encodeLinesFrom_cons (text line : List Mapping) (rest : MappingLines) :
    encodeLinesFrom text (line :: rest) =
      encodeLine text line :: encodeLinesFrom (text ++ line) rest := by
  simp [encodeLinesFrom, List.mapIdx_cons]

/-- Mappings in the order of generated columns are their own sorted line. -/
theorem sort_eq_self {line : List Mapping}
    (h : line.Pairwise (·.generatedColumn ≤ ·.generatedColumn)) : sort line = line :=
  List.mergeSort_of_pairwise (h.imp decide_eq_true)

/-- **The texts of lines spell the lines.** -/
theorem ofLines_encodeLinesFrom : ∀ {lines : MappingLines} {text : List Mapping} {cursor : Cursor},
    cursor.Follows text → (∀ m ∈ text, m.Fits) → (∀ line ∈ lines, ∀ m ∈ line, m.Fits) →
      (∀ line ∈ lines, line.Pairwise (·.generatedColumn ≤ ·.generatedColumn)) →
        ofLines cursor (encodeLinesFrom text lines) = .ok lines
  | [], _, _, _, _, _, _ => rfl
  | line :: rest, text, cursor, hcursor, htext, hfits, hsorted => by
      have hline : ∀ m ∈ line, m.Fits := hfits line List.mem_cons_self
      obtain ⟨cursor', hfollows, hsegments⟩ :=
        ofSegments_segmentsFrom hcursor htext (List.forall_mem_nil _) hline
      have hboth : ∀ m ∈ text ++ line, m.Fits := fun m hm =>
        (List.mem_append.mp hm).elim (htext m) (hline m)
      have hrest : ofLines cursor' (encodeLinesFrom (text ++ line) rest) = .ok rest :=
        ofLines_encodeLinesFrom hfollows hboth
          (fun l hl => hfits l (List.mem_cons_of_mem line hl))
          fun l hl => hsorted l (List.mem_cons_of_mem line hl)
      have hstart : ((latestColumn [] : Nat) : Int) = 0 := rfl
      rw [hstart] at hsegments
      rw [encodeLinesFrom_cons, ofLines, splitNonempty_encodeLine, hsegments]
      simp only [bind, Except.bind, hrest, sort_eq_self (hsorted line List.mem_cons_self)]
      rfl

/-! ## Texts -/

/-- **Lines that were written are read as they were**: each number of a mapping may be any index,
and a difference may go back as far as it went forward. -/
theorem decode_encode {lines : MappingLines} (hne : lines ≠ [])
    (hfits : ∀ line ∈ lines, ∀ m ∈ line, m.Fits)
    (hsorted : ∀ line ∈ lines, line.Pairwise (·.generatedColumn ≤ ·.generatedColumn)) :
    decode (encode lines) = .ok lines := by
  have hparts : encodeLinesFrom [] lines ≠ [] := by
    obtain ⟨line, rest, rfl⟩ := List.exists_cons_of_ne_nil hne
    rw [encodeLinesFrom_cons]
    exact List.cons_ne_nil _ _
  have hsemicolon : ∀ part ∈ encodeLinesFrom [] lines, ';' ∉ part := by
    intro part hpart
    obtain ⟨n, hn, rfl⟩ := List.mem_mapIdx.mp hpart
    exact semicolon_notMem_encodeLine _ _
  rw [decode, encode, Text.split_intercalate hparts hsemicolon]
  exact ofLines_encodeLinesFrom Cursor.follows_nil (List.forall_mem_nil _) hfits hsorted

/-- Lines whose numbers go from one end of their range to the other, with a gap, an empty line, a
name that is left out in between and two mappings of one column. -/
def farLines : MappingLines :=
  [[⟨0, none⟩, ⟨7, some ⟨4294967295, 0, 4294967295, some 4294967295⟩⟩],
    [],
    [⟨4294967295, some ⟨0, 4294967295, 0, none⟩⟩, ⟨4294967295, some ⟨1, 5, 1, some 0⟩⟩]]

theorem decode_encode_farLines :
    farLines ≠ [] ∧ (∀ line ∈ farLines, ∀ m ∈ line, m.Fits) ∧
      (∀ line ∈ farLines, line.Pairwise (·.generatedColumn ≤ ·.generatedColumn)) ∧
      decode (encode farLines) = .ok farLines :=
  have hne : farLines ≠ [] := by decide
  have hfits : ∀ line ∈ farLines, ∀ m ∈ line, m.Fits := by decide
  have hsorted : ∀ line ∈ farLines,
      line.Pairwise (·.generatedColumn ≤ ·.generatedColumn) := by decide
  ⟨hne, hfits, hsorted, decode_encode hne hfits hsorted⟩

/-- The text of lines that go back. -/
example : encode [[⟨4, some ⟨1, 2, 3, none⟩⟩, ⟨6, none⟩], [⟨1, some ⟨0, 2, 0, some 1⟩⟩]] =
    "ICEG,E;CDAHC".toList := by
  decide +kernel

end ConsoleLens.Mapping
