import ColumnStats.Proofs.Grammar
import ColumnStats.Proofs.Layout

/-!
# Rows of a collector

A line is judged by its fields, the labels of the header and its number alone. What the collector
holds is the header and the rows that were taken.

* `Verdict`: what becomes of a line; `verdict_readRow`: **the collector follows it**;
  `Verdict.unique`: a line has one verdict;
* `Table.Holds`: a table holds these labels and these rows, value by value;
* `Table.Holds.pushRow`: one more row is held after the others;
* `Collector.Holds.addLine`: **one step appends the row of the line, or refuses it**.
-/

namespace ColumnStats

/-! ## Verdicts -/

/-- The texts of the fields stand for these numbers. -/
def ReadsAs (record : List (List Char)) (row : List Binary64) : Prop :=
  List.Forall₂ (fun field value => Binary64.ofText? field = some value) record row

/-- The label of a column, or the number of a column that has none, counted from one. -/
def IsColumnName (labels : List String) (position : Nat) (name : String) : Prop :=
  (∃ h : position < labels.length, name = labels[position]) ∨
    labels.length ≤ position ∧ name = "#" ++ toString (position + 1)

/-- What becomes of a line with these fields: the first field that is no numeral is named before
fields are counted. -/
inductive Verdict (labels : List String) (number : Nat) (record : List (List Char)) :
    Except Fault (List Binary64) → Prop
  | row {row : List Binary64} (reads : ReadsAs record row) (width : record.length = labels.length) :
    Verdict labels number record (.ok row)
  | notNumber {before after : List (List Char)} {field : List Char} {name : String}
    (fields : record = before ++ field :: after) (numerals : ∀ f ∈ before, Numeral.IsNumeral f)
    (bad : ¬ Numeral.IsNumeral field) (named : IsColumnName labels before.length name) :
    Verdict labels number record (.error (.notNumber number name (String.ofList field)))
  | width (numerals : ∀ f ∈ record, Numeral.IsNumeral f) (width : record.length ≠ labels.length) :
    Verdict labels number record (.error (.width number labels.length record.length))

theorem ofText?_isSome_iff {field : List Char} :
    (Binary64.ofText? field).isSome ↔ Numeral.IsNumeral field := by
  rw [Binary64.ofText?, Option.isSome_map, Numeral.parse?_isSome_iff]

theorem ofText?_eq_none_iff {field : List Char} :
    Binary64.ofText? field = none ↔ ¬ Numeral.IsNumeral field := by
  rw [← ofText?_isSome_iff, Option.not_isSome_iff_eq_none]

theorem exists_readsAs_iff {record : List (List Char)} :
    (∃ row, ReadsAs record row) ↔ ∀ field ∈ record, Numeral.IsNumeral field := by
  induction record with
  | nil => simp [ReadsAs]
  | cons field record ih =>
    rw [List.forall_mem_cons, ← ih, ← ofText?_isSome_iff, Option.isSome_iff_exists]
    constructor
    · rintro ⟨row, h⟩
      cases h with
      | cons value rest => exact ⟨⟨_, value⟩, ⟨_, rest⟩⟩
    · rintro ⟨⟨value, hv⟩, ⟨row, hr⟩⟩
      exact ⟨value :: row, .cons hv hr⟩

theorem exists_getElem?_of_forall₂ {α β : Type} {related : α → β → Prop} {l : List α} {u : List β}
    (h : List.Forall₂ related l u) {i : Nat} {a : α} (ha : l[i]? = some a) :
    ∃ b, u[i]? = some b ∧ related a b := by
  obtain ⟨hl, rfl⟩ := List.getElem?_eq_some_iff.1 ha
  have hu : i < u.length := h.length_eq ▸ hl
  exact ⟨u[i], List.getElem?_eq_getElem hu, h.get hl hu⟩

theorem ReadsAs.unique {record : List (List Char)} {row row' : List Binary64}
    (h : ReadsAs record row) (h' : ReadsAs record row') : row = row' :=
  List.right_unique_forall₂' (fun _ _ _ value value' => Option.some_inj.1 (value.symm.trans value'))
    h h'

theorem isColumnName_columnName (labels : List String) (position : Nat) :
    IsColumnName labels position (Collector.columnName labels position) := by
  unfold Collector.columnName
  rcases Nat.lt_or_ge position labels.length with h | h
  · exact Or.inl ⟨h, by rw [List.getElem?_eq_getElem h, Option.getD_some]⟩
  · refine Or.inr ⟨h, ?_⟩
    rw [List.getElem?_eq_none h, Option.getD_none]
    rfl

namespace Collector

theorem readField_of_eq_some {collector : Collector} {field : List Char} {value : Binary64}
    (h : Binary64.ofText? field = some value) (position : Nat) :
    collector.readField field position = .ok value := by
  rw [readField, h]

theorem readField_of_eq_none {collector : Collector} {field : List Char}
    (h : Binary64.ofText? field = none) (position : Nat) :
    collector.readField field position = .error (.notNumber collector.nextLine
      (columnName collector.table.labels position) (String.ofList field)) := by
  rw [readField, h]

theorem mapM_readField (collector : Collector) (record : List (List Char)) (start : Nat) :
    (∃ row, ReadsAs record row ∧ ((record.zipIdx start).mapM fun (field, position) =>
      collector.readField field position) = .ok row) ∨
    ∃ before field after, record = before ++ field :: after ∧
      (∀ f ∈ before, Numeral.IsNumeral f) ∧ ¬ Numeral.IsNumeral field ∧
      ((record.zipIdx start).mapM fun (field, position) => collector.readField field position) =
        .error (.notNumber collector.nextLine
          (columnName collector.table.labels (start + before.length)) (String.ofList field)) := by
  induction record generalizing start with
  | nil => exact Or.inl ⟨[], .nil, rfl⟩
  | cons field record ih =>
    rw [List.zipIdx_cons, List.mapM_cons]
    cases hf : Binary64.ofText? field with
    | none =>
      refine Or.inr ⟨[], field, record, rfl, by simp, ofText?_eq_none_iff.1 hf, ?_⟩
      dsimp only
      rw [readField_of_eq_none hf]
      rfl
    | some value =>
      dsimp only
      rw [readField_of_eq_some hf]
      rcases ih (start + 1) with ⟨row, reads, h⟩ | ⟨before, bad, after, rfl, hb, hbad, h⟩
      · exact Or.inl ⟨value :: row, .cons hf reads, by rw [h]; rfl⟩
      · refine Or.inr ⟨field :: before, bad, after, rfl, ?_, hbad, ?_⟩
        · exact List.forall_mem_cons.2 ⟨ofText?_isSome_iff.1 (by rw [hf]; rfl), hb⟩
        · rw [h, List.length_cons, Nat.add_assoc, Nat.add_comm 1]
          rfl

/-- **The collector follows the verdict.** -/
theorem verdict_readRow (collector : Collector) (line : String) :
    Verdict collector.table.labels collector.nextLine (fields collector.delimiter line)
      (collector.readRow line) := by
  unfold readRow
  rcases collector.mapM_readField (fields collector.delimiter line) 0 with
    ⟨row, reads, h⟩ | ⟨before, field, after, hr, hb, hbad, h⟩
  · have length : row.length = (fields collector.delimiter line).length := reads.length_eq.symm
    rw [h]
    change Verdict _ _ _ (if row.length = collector.table.width then Except.ok row
      else Except.error (Fault.width collector.nextLine collector.table.width row.length))
    rw [← Table.length_labels, length]
    split
    next width => exact .row reads width
    next width => exact .width (exists_readsAs_iff.1 ⟨row, reads⟩) width
  · rw [h, Nat.zero_add]
    exact .notNumber hr hb hbad (isColumnName_columnName _ _)

end Collector

theorem Verdict.exists_row_iff {labels : List String} {number : Nat} {record : List (List Char)}
    {result : Except Fault (List Binary64)} (h : Verdict labels number record result) :
    (∃ row, result = .ok row) ↔
      (∀ field ∈ record, Numeral.IsNumeral field) ∧ record.length = labels.length := by
  cases h with
  | row reads width => simpa using ⟨exists_readsAs_iff.1 ⟨_, reads⟩, width⟩
  | notNumber split _ bad => 
    simp only [reduceCtorEq, exists_false, false_iff, not_and]
    intro numerals
    exact absurd (numerals _ (by simp [split])) bad
  | width _ width => simp [width]

theorem IsColumnName.unique {labels : List String} {position : Nat} {name name' : String}
    (h : IsColumnName labels position name) (h' : IsColumnName labels position name') :
    name = name' := by
  rcases h with ⟨inside, rfl⟩ | ⟨outside, rfl⟩ <;> rcases h' with ⟨inside', rfl⟩ | ⟨outside', rfl⟩
  · rfl
  · omega
  · omega
  · rfl

/-- The first item without a property, and what is before it. -/
theorem eq_of_append_cons_eq {α : Type} {good : α → Prop} {before before' after after' : List α}
    {bad bad' : α} (h : before ++ bad :: after = before' ++ bad' :: after')
    (first : (∀ x ∈ before, good x) ∧ ¬ good bad) (first' : (∀ x ∈ before', good x) ∧ ¬ good bad') :
    before = before' ∧ bad = bad' := by
  induction before generalizing before' with
  | nil =>
    cases before' with
    | nil => exact ⟨rfl, (List.cons.inj h).1⟩
    | cons x before' =>
      obtain rfl := (List.cons.inj h).1
      exact absurd (first'.1 _ List.mem_cons_self) first.2
  | cons x before ih =>
    cases before' with
    | nil =>
      obtain rfl := (List.cons.inj h).1
      exact absurd (first.1 _ List.mem_cons_self) first'.2
    | cons y before' =>
      obtain ⟨rfl, rest⟩ := List.cons.inj h
      obtain ⟨rfl, rfl⟩ := ih rest ⟨(List.forall_mem_cons.1 first.1).2, first.2⟩
        ⟨(List.forall_mem_cons.1 first'.1).2, first'.2⟩
      exact ⟨rfl, rfl⟩

theorem Verdict.unique {labels : List String} {number : Nat} {record : List (List Char)}
    {result result' : Except Fault (List Binary64)} (h : Verdict labels number record result)
    (h' : Verdict labels number record result') : result = result' := by
  have taken := h.exists_row_iff.trans h'.exists_row_iff.symm
  cases h with
  | row reads width =>
    obtain ⟨row', rfl⟩ := taken.1 ⟨_, rfl⟩
    cases h' with
    | row reads' width' => rw [reads.unique reads']
  | notNumber split numerals bad named =>
    cases h' with
    | row reads' width' => simp at taken
    | notNumber split' numerals' bad' named' =>
      obtain ⟨rfl, rfl⟩ :=
        eq_of_append_cons_eq (split.symm.trans split') ⟨numerals, bad⟩ ⟨numerals', bad'⟩
      rw [named.unique named']
    | width numerals' width' => exact absurd (numerals' _ (by simp [split])) bad
  | width numerals width =>
    cases h' with
    | row reads' width' => exact absurd width' width
    | notNumber split' numerals' bad' named' => exact absurd (numerals _ (by simp [split'])) bad'
    | width numerals' width' => rfl

/-! ## What a table holds -/

namespace Table

theorem pushValues_eq_zipWith {columns : List Column} {row : List Binary64}
    (h : row.length = columns.length) : pushValues columns row =
      List.zipWith (fun column value => { column with values := column.values.push value })
        columns row := by
  induction columns generalizing row with
  | nil => rw [List.eq_nil_of_length_eq_zero h]; rfl
  | cons column columns ih =>
    obtain ⟨value, row, rfl⟩ := List.exists_cons_of_length_eq_add_one h
    rw [pushValues, ih (Nat.succ.inj h), List.zipWith_cons_cons]

theorem getElem?_pushValues_eq_some_iff {columns : List Column} {row : List Binary64}
    (h : row.length = columns.length) {j : Nat} {column : Column} :
    (pushValues columns row)[j]? = some column ↔ ∃ old value, columns[j]? = some old ∧
      row[j]? = some value ∧ { old with values := old.values.push value } = column := by
  rw [pushValues_eq_zipWith h, List.getElem?_zipWith_eq_some]

/-- The table has these labels and these rows: value `j` of row `i` is value `i` of column `j`. -/
structure Holds (table : Table) (labels : List String) (rows : List (List Binary64)) : Prop where
  labels_eq : table.labels = labels
  rowCount_eq : table.rowCount = rows.length
  size_eq : ∀ column ∈ table.columns, column.values.size = rows.length
  value_eq : ∀ (i j : Nat) (row : List Binary64) (column : Column), rows[i]? = some row →
    table.columns[j]? = some column → column.values[i]? = row[j]?

variable {table : Table} {labels : List String} {rows : List (List Binary64)}

theorem holds_ofLabels (labels : List String) : (ofLabels labels).Holds labels [] where
  labels_eq := labels_ofLabels labels
  rowCount_eq := rfl
  size_eq := by simp [ofLabels]
  value_eq := by simp

theorem Holds.width_eq (h : table.Holds labels rows) : table.width = labels.length := by
  rw [← length_labels, h.labels_eq]

theorem Holds.pushRow (h : table.Holds labels rows) {row : List Binary64}
    (width : row.length = labels.length) : (table.pushRow row).Holds labels (rows ++ [row]) := by
  have width' : row.length = table.columns.length := width.trans h.width_eq.symm
  refine ⟨by rw [labels_pushRow, h.labels_eq], ?_, ?_, ?_⟩
  · rw [List.length_append, ← h.rowCount_eq]
    rfl
  · intro column hc
    obtain ⟨j, hj⟩ := List.mem_iff_getElem?.1 hc
    obtain ⟨old, value, hold, -, rfl⟩ := (getElem?_pushValues_eq_some_iff width').1 hj
    rw [Array.size_push, h.size_eq old (List.mem_of_getElem? hold), List.length_append]
    rfl
  · intro i j row' column hi hj
    obtain ⟨old, value, hold, hvalue, rfl⟩ := (getElem?_pushValues_eq_some_iff width').1 hj
    have size := h.size_eq old (List.mem_of_getElem? hold)
    rw [Array.getElem?_push, size]
    split
    next last =>
      rw [last, List.getElem?_concat_length, Option.some_inj] at hi
      rw [← hi, hvalue]
    next last =>
      have : i < rows.length := by
        have := (List.getElem?_eq_some_iff.1 hi).1
        rw [List.length_append, List.length_singleton] at this
        omega
      rw [List.getElem?_append_left this] at hi
      exact h.value_eq i j row' old hi hold

end Table

/-! ## Steps -/

namespace Collector

/-- The collector splits at the delimiter and holds these labels and rows. -/
structure Holds (collector : Collector) (delimiter : Char) (labels : List String)
    (rows : List (List Binary64)) : Prop where
  delimiter_eq : collector.delimiter = delimiter
  table : collector.table.Holds labels rows

/-- The line is a row of numbers. -/
def IsRow (delimiter : Char) (width : Nat) (line : String) (row : List Binary64) : Prop :=
  ReadsAs (fields delimiter line) row ∧ row.length = width

theorem forall_mem_of_isRow {delimiter : Char} {width : Nat} {texts : List String}
    {rows : List (List Binary64)} (h : List.Forall₂ (IsRow delimiter width) texts rows) :
    ∀ text ∈ texts, (fields delimiter text).length = width ∧
      ∀ field ∈ fields delimiter text, Numeral.IsNumeral field := by
  induction h with
  | nil => simp
  | cons isRow _ ih =>
    obtain ⟨reads, width⟩ := isRow
    have numerals := exists_readsAs_iff.1 ⟨_, reads⟩
    exact List.forall_mem_cons.2 ⟨⟨reads.length_eq.trans width, numerals⟩, ih⟩

theorem exists_rows_iff {delimiter : Char} {width : Nat} {texts : List String} :
    (∃ rows, List.Forall₂ (IsRow delimiter width) texts rows) ↔
      ∀ text ∈ texts, (fields delimiter text).length = width ∧
        ∀ field ∈ fields delimiter text, Numeral.IsNumeral field := by
  refine ⟨fun ⟨rows, are⟩ => forall_mem_of_isRow are, fun wide => ?_⟩
  induction texts with
  | nil => exact ⟨[], .nil⟩
  | cons text texts ih =>
    obtain ⟨⟨width, numerals⟩, rest⟩ := List.forall_mem_cons.1 wide
    obtain ⟨row, reads⟩ := exists_readsAs_iff.2 numerals
    obtain ⟨rows, are⟩ := ih rest
    exact ⟨row :: rows, .cons ⟨reads, reads.length_eq.symm.trans width⟩ are⟩

variable {collector : Collector} {delimiter : Char} {labels : List String}
  {rows : List (List Binary64)}

theorem Holds.nextLine_eq (h : collector.Holds delimiter labels rows) :
    collector.nextLine = rows.length + 2 := by
  rw [nextLine, h.table.rowCount_eq]

theorem Holds.addRow (h : collector.Holds delimiter labels rows) {row : List Binary64}
    (width : row.length = labels.length) :
    (collector.addRow row).Holds delimiter labels (rows ++ [row]) :=
  ⟨h.delimiter_eq, h.table.pushRow width⟩

theorem Holds.verdict (h : collector.Holds delimiter labels rows) (line : String) :
    Verdict labels (rows.length + 2) (fields delimiter line) (collector.readRow line) := by
  have := collector.verdict_readRow line
  rwa [h.table.labels_eq, h.nextLine_eq, h.delimiter_eq] at this

theorem Holds.readRow_eq (h : collector.Holds delimiter labels rows) {line : String}
    {result : Except Fault (List Binary64)}
    (verdict : Verdict labels (rows.length + 2) (fields delimiter line) result) :
    collector.readRow line = result :=
  (h.verdict line).unique verdict

/-- What one step does: a row is appended, or the line is refused and nothing changes. -/
theorem Holds.addLine (h : collector.Holds delimiter labels rows) (line : String) :
    (∃ row, IsRow delimiter labels.length line row ∧
      collector.addLine line = .ok (collector.addRow row)) ∨
    ∃ fault, Verdict labels (rows.length + 2) (fields delimiter line) (.error fault) ∧
      collector.addLine line = .error fault := by
  have verdict := h.verdict line
  rw [Collector.addLine]
  cases hr : collector.readRow line with
  | ok row =>
    rw [hr] at verdict
    cases verdict with
    | row reads width => exact Or.inl ⟨row, ⟨reads, reads.length_eq.symm.trans width⟩, rfl⟩
  | error fault =>
    rw [hr] at verdict
    exact Or.inr ⟨fault, verdict, rfl⟩

theorem holds_ofHeader (delimiter : UInt8) (header : String) :
    (ofHeader delimiter header).Holds (Char.ofUInt8 delimiter)
      ((fields (Char.ofUInt8 delimiter) header).map String.ofList) [] :=
  ⟨rfl, Table.holds_ofLabels _⟩

end Collector

end ColumnStats
