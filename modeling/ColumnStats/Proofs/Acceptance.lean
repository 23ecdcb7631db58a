import ColumnStats.Proofs.Report
import ColumnStats.Proofs.Runs

/-!
# Accepted inputs

An input is accepted when it is empty, or when it is a text of a header and at least two rows of
numerals that are as wide as it.

* `IsRecords`, `WellFormed`: the fields of all lines, and the inputs with a table;
* `Table.Transposes`: column `j` of the table holds the numbers of field `j` of all rows;
* `exists_rows_of_outcome`, `outcome_of_rows`: the header and the rows behind an accepted input;
* `wellFormed_of_outcome`, `outcome_of_wellFormed`: the two directions;
* `analyze_of_records`, `outcome_of_refused`: runs on known records, up to one that is refused;
* `accepts_exactly_well_formed`: **an input is accepted exactly when it is empty or well formed, and
  the table transposes its rows**.
-/

namespace ColumnStats

open Text

/-! ## Well-formed inputs -/

/-- The fields of all lines of a byte string. -/
def IsRecords (delimiter : Char) (bytes : List UInt8) (records : List (List (List Char))) : Prop :=
  ∃ texts : List String, IsLines bytes (texts.map encode) ∧
    List.Forall₂ (IsRecord delimiter) texts records

/-- The whole input is a text. It has a header and at least two rows; each has as many fields as the
header, and all of them are numerals. -/
structure WellFormed (delimiter : Char) (bytes : List UInt8) : Prop where
  isText : IsText bytes
  table : ∃ header rows, IsRecords delimiter bytes (header :: rows) ∧ 2 ≤ rows.length ∧
    ∀ row ∈ rows, row.length = header.length ∧ ∀ field ∈ row, Numeral.IsNumeral field

/-- Column `j` has the label of field `j` of the header and the numbers of field `j` of the rows. -/
structure Table.Transposes (table : Table) (header : List (List Char))
    (rows : List (List (List Char))) : Prop where
  width_eq : table.columns.length = header.length
  labels_eq : table.labels = header.map String.ofList
  rowCount_eq : table.rowCount = rows.length
  size_eq : ∀ column ∈ table.columns, column.values.size = rows.length
  value_eq : ∀ (i j : Nat) (row : List (List Char)) (field : List Char) (column : Column),
    rows[i]? = some row → row[j]? = some field → table.columns[j]? = some column →
    ∃ value, Binary64.ofText? field = some value ∧ column.values[i]? = some value

theorem isRecords_iff {delimiter : Char} {bytes : List UInt8}
    {records : List (List (List Char))} : IsRecords delimiter bytes records ↔
      ∃ texts : List String, lineBytes bytes = texts.map encode ∧
        records = texts.map (fields delimiter) := by
  simp only [IsRecords, isLines_iff, forall₂_iff_eq_map (@isRecord_iff delimiter),
    eq_comm (a := lineBytes bytes)]

theorem IsRecords.unique {delimiter : Char} {bytes : List UInt8}
    {records records' : List (List (List Char))} (h : IsRecords delimiter bytes records)
    (h' : IsRecords delimiter bytes records') : records = records' := by
  obtain ⟨texts, e, rfl⟩ := isRecords_iff.1 h
  obtain ⟨texts', e', rfl⟩ := isRecords_iff.1 h'
  rw [List.map_injective_iff.2 (fun _ _ => encode_injective) (e.symm.trans e')]

theorem isText_of_lineBytes_eq {bytes : List UInt8} {texts : List String}
    (h : lineBytes bytes = texts.map encode) : IsText bytes := by
  rw [(isLines_lineBytes bytes).isText_iff, h, List.forall_mem_map]
  exact fun text _ => ⟨text, rfl⟩

/-! ## Transposition -/

theorem Table.Holds.transposes {table : Table} {delimiter : Char} {header : List (List Char)}
    {texts : List String} {rows : List (List Binary64)}
    (h : table.Holds (header.map String.ofList) rows)
    (are : List.Forall₂ (Collector.IsRow delimiter header.length) texts rows) :
    table.Transposes header (texts.map (fields delimiter)) where
  width_eq := h.width_eq.trans (List.length_map _)
  labels_eq := h.labels_eq
  rowCount_eq := by rw [h.rowCount_eq, List.length_map, are.length_eq]
  size_eq := by
    rw [List.length_map, are.length_eq]
    exact h.size_eq
  value_eq := by
    intro i j record field column hi hj hc
    rw [List.getElem?_map, Option.map_eq_some_iff] at hi
    obtain ⟨text, ht, rfl⟩ := hi
    obtain ⟨row, hrow, reads, -⟩ := exists_getElem?_of_forall₂ are ht
    obtain ⟨value, hvalue, read⟩ := exists_getElem?_of_forall₂ reads hj
    exact ⟨value, read, by rw [h.value_eq i j row column hrow hc, hvalue]⟩

/-! ## Acceptance -/

variable {settings : Settings} {bytes : List UInt8} {sink : Sink}

theorem exists_rows_of_outcome (unfailing : sink.Unfailing) {table : Table}
    (accepted : (analyze settings ⟨bytes, none⟩ sink).outcome = .ok table) (nonempty : bytes ≠ []) :
    ∃ header texts rows, lineBytes bytes = (header :: texts).map encode ∧
      List.Forall₂ (Collector.IsRow (Char.ofUInt8 settings.delimiter)
        (fields (Char.ofUInt8 settings.delimiter) header).length) texts rows ∧
      table.Holds ((fields (Char.ofUInt8 settings.delimiter) header).map String.ofList) rows ∧
      2 ≤ rows.length ∧
      (analyze settings ⟨bytes, none⟩ sink).sink = (table.report settings.z sink).sink := by
  cases course_analyze settings ⟨bytes, none⟩ sink with
  | noLine lines run =>
    exact absurd ((isLines_lineBytes bytes).eq_nil_iff.1 (List.map_eq_nil_iff.1 lines)) nonempty
  | noHeader lines run => simp [run _ _ lines] at accepted
  | ended lines rows ends run =>
    obtain ⟨events, run⟩ := run
    simp [run _ _ lines] at accepted
  | @report header texts rows table lines are holds outcome written =>
    rw [outcome] at accepted
    rcases holds.report_cases unfailing settings.z with ⟨-, label, labels, -, fault, -⟩ |
      ⟨enough, summaries, -, fault, -⟩
    · simp [fault] at accepted
    · obtain rfl : table = _ := by simpa [fault] using accepted
      exact ⟨header, texts, rows, Source.lineBytes_eq_of_lines_eq lines, are, holds, enough, written⟩

theorem outcome_of_rows (unfailing : sink.Unfailing) {header : String} {texts : List String}
    (lines_eq : lineBytes bytes = (header :: texts).map encode)
    (wide : ∀ text ∈ texts, (fields (Char.ofUInt8 settings.delimiter) text).length =
        (fields (Char.ofUInt8 settings.delimiter) header).length ∧
      ∀ field ∈ fields (Char.ofUInt8 settings.delimiter) text, Numeral.IsNumeral field)
    (enough : 2 ≤ texts.length) : ∃ table rows,
      (analyze settings ⟨bytes, none⟩ sink).outcome = .ok table ∧
      List.Forall₂ (Collector.IsRow (Char.ofUInt8 settings.delimiter)
        (fields (Char.ofUInt8 settings.delimiter) header).length) texts rows ∧
      table.Holds ((fields (Char.ofUInt8 settings.delimiter) header).map String.ofList) rows ∧
      (analyze settings ⟨bytes, none⟩ sink).sink = (table.report settings.z sink).sink := by
  have read : (⟨bytes, none⟩ : Source).lines = (header :: texts).map .ok :=
    map_readLine_eq_map_ok_iff.2 lines_eq
  obtain ⟨rows, are⟩ := Collector.exists_rows_iff.2 wide
  obtain ⟨table, holds, run⟩ := analyze_of_rows read are
  obtain ⟨summaries, -, fault, -⟩ :=
    holds.report_of_two_le (are.length_eq ▸ enough) unfailing settings.z
  obtain ⟨outcome, written⟩ := run sink
  exact ⟨table, rows, by rw [outcome, fault], are, holds, written⟩

theorem wellFormed_of_outcome (unfailing : sink.Unfailing) {table : Table}
    (accepted : (analyze settings ⟨bytes, none⟩ sink).outcome = .ok table) :
    bytes = [] ∨ WellFormed (Char.ofUInt8 settings.delimiter) bytes ∧ ∃ header rows,
      IsRecords (Char.ofUInt8 settings.delimiter) bytes (header :: rows) ∧
      table.Transposes header rows := by
  by_cases nonempty : bytes = []
  · exact Or.inl nonempty
  obtain ⟨header, texts, rows, texts_eq, are, holds, enough, -⟩ :=
    exists_rows_of_outcome unfailing accepted nonempty
  have records : IsRecords (Char.ofUInt8 settings.delimiter) bytes
      (fields _ header :: texts.map (fields _)) := isRecords_iff.2 ⟨header :: texts, texts_eq, rfl⟩
  refine Or.inr ⟨⟨isText_of_lineBytes_eq texts_eq, _, _, records, ?_, ?_⟩, _, _, records,
    holds.transposes are⟩
  · rwa [List.length_map, are.length_eq]
  · exact List.forall_mem_map.2 (Collector.forall_mem_of_isRow are)

theorem outcome_of_wellFormed (unfailing : sink.Unfailing)
    (h : WellFormed (Char.ofUInt8 settings.delimiter) bytes) :
    ∃ table, (analyze settings ⟨bytes, none⟩ sink).outcome = .ok table := by
  obtain ⟨-, names, records, isRecords, enough, wide⟩ := h
  obtain ⟨texts, bytes_eq, records_eq⟩ := isRecords_iff.1 isRecords
  obtain ⟨header, texts, rfl, rfl, rfl⟩ := List.map_eq_cons_iff.1 records_eq.symm
  rw [List.length_map] at enough
  obtain ⟨table, -, accepted, -⟩ :=
    outcome_of_rows unfailing bytes_eq (List.forall_mem_map.1 wide) enough
  exact ⟨table, accepted⟩

/-! ## Runs on known records -/

section Known

variable {labels : List (List Char)} {rows : List (List (List Char))}

theorem analyze_of_records
    (h : IsRecords (Char.ofUInt8 settings.delimiter) bytes (labels :: rows))
    (wide : ∀ row ∈ rows, row.length = labels.length ∧ ∀ field ∈ row, Numeral.IsNumeral field) :
    ∃ (table : Table) (new : List (List Binary64)), new.length = rows.length ∧
      table.Holds (labels.map String.ofList) new ∧
      ∀ sink, (analyze settings ⟨bytes, none⟩ sink).outcome =
          (match (table.report settings.z sink).fault with
          | some fault => .error fault
          | none => .ok table) ∧
        (analyze settings ⟨bytes, none⟩ sink).sink = (table.report settings.z sink).sink := by
  obtain ⟨texts, lines, records⟩ := isRecords_iff.1 h
  obtain ⟨header, texts, rfl, rfl, rfl⟩ := List.map_eq_cons_iff.1 records.symm
  obtain ⟨new, are⟩ := Collector.exists_rows_iff.2 (List.forall_mem_map.1 wide)
  obtain ⟨table, holds, run⟩ :=
    @analyze_of_rows settings ⟨bytes, none⟩ _ _ _ (map_readLine_eq_map_ok_iff.2 lines) are
  exact ⟨table, new, by rw [List.length_map, are.length_eq], holds, run⟩

theorem outcome_of_refused {bad : List (List Char)} {after : List (List (List Char))}
    {fault : Fault}
    (h : IsRecords (Char.ofUInt8 settings.delimiter) bytes (labels :: (rows ++ bad :: after)))
    (wide : ∀ row ∈ rows, row.length = labels.length ∧ ∀ field ∈ row, Numeral.IsNumeral field)
    (verdict : Verdict (labels.map String.ofList) (rows.length + 2) bad (.error fault))
    (sink : Sink) : (analyze settings ⟨bytes, none⟩ sink).outcome = .error fault := by
  obtain ⟨texts, lines, records⟩ := isRecords_iff.1 h
  obtain ⟨header, others, rfl, rfl, later⟩ := List.map_eq_cons_iff.1 records.symm
  obtain ⟨texts, others, rfl, rfl, last⟩ := List.map_eq_append_iff.1 later
  obtain ⟨text, rest, rfl, rfl, -⟩ := List.map_eq_cons_iff.1 last
  obtain ⟨new, are⟩ := Collector.exists_rows_iff.2 (List.forall_mem_map.1 wide)
  have read : (⟨bytes, none⟩ : Source).lines =
      (header :: texts).map .ok ++ .ok text :: rest.map .ok := by
    rw [← List.map_cons, ← List.map_append]
    exact map_readLine_eq_map_ok_iff.2 lines
  rw [List.length_map] at verdict
  obtain ⟨events, run⟩ := analyze_of_refused read are verdict sink
  rw [run]

end Known

/-- **An input is accepted exactly when it is empty or well formed, and the table transposes its
rows.** -/
theorem accepts_exactly_well_formed (settings : Settings) (bytes : List UInt8) {sink : Sink}
    (unfailing : sink.Unfailing) :
    ((∃ table, (analyze settings ⟨bytes, none⟩ sink).outcome = .ok table) ↔
      bytes = [] ∨ WellFormed (Char.ofUInt8 settings.delimiter) bytes) ∧
    ∀ table, (analyze settings ⟨bytes, none⟩ sink).outcome = .ok table → bytes ≠ [] →
      ∃ header rows, IsRecords (Char.ofUInt8 settings.delimiter) bytes (header :: rows) ∧
        table.Transposes header rows := by
  refine ⟨⟨?_, ?_⟩, ?_⟩
  · rintro ⟨table, accepted⟩
    exact (wellFormed_of_outcome unfailing accepted).imp_right And.left
  · rintro (rfl | h)
    · exact ⟨.empty, rfl⟩
    · exact outcome_of_wellFormed unfailing h
  · intro table accepted nonempty
    exact ((wellFormed_of_outcome unfailing accepted).resolve_left nonempty).2

theorem accepts_two_columns : ({} : Sink).Unfailing ∧ ∃ table,
    (analyze {} ⟨encode "a, b\r\n 1,-inf\n2e3,.5", none⟩ {}).outcome = .ok table ∧
      table.Transposes [['a'], ['b']] [[['1'], "-inf".toList], ["2e3".toList, ".5".toList]] := by
  have unfailing : ({} : Sink).Unfailing := ⟨rfl, rfl⟩
  have records : IsRecords ',' (encode "a, b\r\n 1,-inf\n2e3,.5")
      [[['a'], ['b']], [['1'], "-inf".toList], ["2e3".toList, ".5".toList]] :=
    isRecords_iff.2 ⟨["a, b", " 1,-inf", "2e3,.5"], by decide, by decide⟩
  have accepts := accepts_exactly_well_formed {} (encode "a, b\r\n 1,-inf\n2e3,.5") unfailing
  obtain ⟨table, accepted⟩ := accepts.1.2
    (Or.inr ⟨⟨_, rfl⟩, _, _, records, by decide, by decide⟩)
  obtain ⟨header, rows, records', transposes⟩ := accepts.2 table accepted (by decide)
  obtain ⟨rfl, rfl⟩ := List.cons.inj (records'.unique records)
  exact ⟨unfailing, table, accepted, transposes⟩

end ColumnStats
