import ColumnStats.Proofs.Rows

/-!
# Histories of a collector

Lines are offered to a collector one by one; some are taken and some are refused.

* `feed`, `replies`, `taken`: the collector, the faults and the lines that were taken;
* `feed_taken`, `replies_taken`: the taken lines alone lead to the same collector;
* `Holds.feed`: after a history the collector holds the rows of the taken lines;
* `refused_lines_leave_no_trace`: **a history is as good as its taken lines**.
-/

namespace ColumnStats

namespace Collector

variable {collector : Collector} {delimiter : Char} {labels : List String}
  {rows : List (List Binary64)}

/-! ## Histories -/

/-- The collector after these lines were offered one by one. -/
def feed (collector : Collector) (history : List String) : Collector :=
  history.foldl (fun collector line => (collector.offer line).1) collector

/-- The faults of these lines, offered one by one; a line that is taken has none. -/
def replies : Collector → List String → List (Option Fault)
  | _, [] => []
  | collector, line :: history =>
    (collector.offer line).2 :: (collector.offer line).1.replies history

/-- The lines that are taken when these lines are offered one by one. -/
def taken : Collector → List String → List String
  | _, [] => []
  | collector, line :: history =>
    let rest := (collector.offer line).1.taken history
    if (collector.offer line).2 = none then line :: rest else rest

theorem feed_cons (collector : Collector) (line : String) (history : List String) :
    collector.feed (line :: history) = (collector.offer line).1.feed history := rfl

theorem feed_append (collector : Collector) (history later : List String) :
    collector.feed (history ++ later) = (collector.feed history).feed later :=
  List.foldl_append

theorem replies_append (collector : Collector) (history later : List String) :
    collector.replies (history ++ later) =
      collector.replies history ++ (collector.feed history).replies later := by
  induction history generalizing collector with
  | nil => rfl
  | cons line history ih => rw [List.cons_append, replies, ih, replies, feed_cons, List.cons_append]

theorem length_replies (collector : Collector) (history : List String) :
    (collector.replies history).length = history.length := by
  induction history generalizing collector with
  | nil => rfl
  | cons line history ih => rw [replies, List.length_cons, ih, List.length_cons]

theorem offer_of_refused {fault : Fault} {line : String} (h : (collector.offer line).2 = some fault) :
    (collector.offer line).1 = collector := by
  cases refused : collector.addLine line with
  | ok next => simp [offer, refused] at h
  | error fault => rw [offer, refused]

theorem feed_taken (collector : Collector) (history : List String) :
    collector.feed (collector.taken history) = collector.feed history := by
  induction history generalizing collector with
  | nil => rfl
  | cons line history ih =>
    rw [feed_cons, taken]
    cases h : (collector.offer line).2 with
    | none => rw [if_pos rfl, feed_cons, ih]
    | some fault => rw [if_neg (Option.some_ne_none fault), offer_of_refused h, ih]

theorem replies_taken (collector : Collector) (history : List String) :
    collector.replies (collector.taken history) = (collector.taken history).map fun _ => none := by
  induction history generalizing collector with
  | nil => rfl
  | cons line history ih =>
    rw [taken]
    cases h : (collector.offer line).2 with
    | none => rw [if_pos rfl, replies, h, ih, List.map_cons]
    | some fault => rw [if_neg (Option.some_ne_none fault), offer_of_refused h, ih]

theorem Holds.offer (h : collector.Holds delimiter labels rows) (line : String) :
    (∃ row, IsRow delimiter labels.length line row ∧
      collector.offer line = (collector.addRow row, none)) ∨
    ∃ fault, Verdict labels (rows.length + 2) (fields delimiter line) (.error fault) ∧
      collector.offer line = (collector, some fault) := by
  rw [Collector.offer]
  rcases h.addLine line with ⟨row, isRow, e⟩ | ⟨fault, verdict, e⟩
  · exact Or.inl ⟨row, isRow, by rw [e]⟩
  · exact Or.inr ⟨fault, verdict, by rw [e]⟩

/-- What a history does: the rows of the taken lines are appended. -/
theorem Holds.feed (h : collector.Holds delimiter labels rows) (history : List String) :
    ∃ new, List.Forall₂ (IsRow delimiter labels.length) (collector.taken history) new ∧
      (collector.feed history).Holds delimiter labels (rows ++ new) := by
  induction history generalizing collector rows with
  | nil => exact ⟨[], .nil, by rw [List.append_nil]; exact h⟩
  | cons line history ih =>
    rw [feed_cons, taken]
    rcases h.offer line with ⟨row, isRow, e⟩ | ⟨fault, -, e⟩
    · obtain ⟨new, are, holds⟩ := ih (h.addRow isRow.2)
      rw [e, if_pos rfl]
      exact ⟨row :: new, .cons isRow are, by rwa [List.append_assoc] at holds⟩
    · rw [e, if_neg (Option.some_ne_none fault)]
      exact ih h

end Collector

/-! ## Refused lines -/

/-- The line that a fault blames. -/
def Fault.line? : Fault → Option Nat
  | .width line _ _ => some line
  | .notNumber line _ _ => some line
  | _ => none

theorem Verdict.line?_eq {labels : List String} {number : Nat} {record : List (List Char)}
    {fault : Fault} (h : Verdict labels number record (.error fault)) :
    fault.line? = some number := by
  cases h <;> rfl

/-- One row was appended, value `j` to column `j`, and nothing else changed. -/
structure Collector.Appended (old new : Collector) (row : List Binary64) : Prop where
  delimiter_eq : new.delimiter = old.delimiter
  rowCount_eq : new.table.rowCount = old.table.rowCount + 1
  width_eq : new.table.width = old.table.width
  columns_eq : ∀ (j : Nat) (column : Column), old.table.columns[j]? = some column →
    ∃ value, row[j]? = some value ∧
      new.table.columns[j]? = some { column with values := column.values.push value }

theorem Collector.appended_addRow {collector : Collector} {row : List Binary64}
    (width : row.length = collector.table.width) : collector.Appended (collector.addRow row) row where
  delimiter_eq := rfl
  rowCount_eq := rfl
  width_eq := Table.width_pushRow _ _
  columns_eq := by
    intro j column hj
    have inside : j < row.length := width ▸ (List.getElem?_eq_some_iff.1 hj).1
    refine ⟨row[j], List.getElem?_eq_getElem inside, ?_⟩
    exact (Table.getElem?_pushValues_eq_some_iff width).2
      ⟨column, row[j], hj, List.getElem?_eq_getElem inside, rfl⟩

theorem Collector.Holds.offer_eq {collector next : Collector} {delimiter : Char}
    {labels : List String} {rows : List (List Binary64)}
    (h : collector.Holds delimiter labels rows) {line : String} {record : List (List Char)}
    (fields : IsRecord delimiter line record) {fault? : Option Fault}
    (offered : collector.offer line = (next, fault?)) :
    (fault? = none ↔ record.length = labels.length ∧ ∀ field ∈ record, Numeral.IsNumeral field) ∧
      (fault? = none → ∃ row, ReadsAs record row ∧ collector.Appended next row) ∧
      ∀ fault, fault? = some fault → next = collector ∧ fault.line? = some (rows.length + 2) := by
  obtain rfl := isRecord_iff.1 fields
  rcases h.offer line with ⟨row, ⟨reads, width⟩, e⟩ | ⟨fault, verdict, e⟩
  · obtain ⟨rfl, rfl⟩ := Prod.mk.inj (e.symm.trans offered)
    have numerals := exists_readsAs_iff.1 ⟨row, reads⟩
    have appended := appended_addRow (width.trans h.table.width_eq.symm)
    exact ⟨⟨fun _ => ⟨reads.length_eq.trans width, numerals⟩, fun _ => rfl⟩,
      fun _ => ⟨row, reads, appended⟩, by simp⟩
  · obtain ⟨rfl, rfl⟩ := Prod.mk.inj (e.symm.trans offered)
    have refused := verdict.exists_row_iff.not.1 (by simp)
    refine ⟨⟨by simp, fun h => absurd h.symm refused⟩, by simp, ?_⟩
    rintro _ ⟨⟩
    exact ⟨rfl, verdict.line?_eq⟩

/-- **A history is as good as its taken lines**: what comes later ends as if the refused lines had
never been offered. -/
theorem refused_lines_leave_no_trace (delimiter : UInt8) (header : String) (history : List String) :
    ∃ labels, IsRecord (Char.ofUInt8 delimiter) header labels ∧
      let start := Collector.ofHeader delimiter header
      let now := start.feed history
      let taken := start.taken history
      (now.delimiter = Char.ofUInt8 delimiter ∧ now.table.labels = labels.map String.ofList ∧
        now.table.width = labels.length ∧ now.table.rowCount = taken.length ∧
        ∀ column ∈ now.table.columns, column.values.size = now.table.rowCount) ∧
      (∀ line record next fault?, IsRecord (Char.ofUInt8 delimiter) line record →
        now.offer line = (next, fault?) →
        (fault? = none ↔ record.length = labels.length ∧
          ∀ field ∈ record, Numeral.IsNumeral field) ∧
        (fault? = none → ∃ row, ReadsAs record row ∧ now.Appended next row) ∧
        ∀ fault, fault? = some fault → next = now ∧ fault.line? = some (taken.length + 2)) ∧
      ∀ later, start.feed (taken ++ later) = start.feed (history ++ later) ∧
        start.replies (taken ++ later) =
          taken.map (fun _ => none) ++ (start.replies (history ++ later)).drop history.length ∧
        ∀ z sink, (start.feed (taken ++ later)).report z sink =
          (start.feed (history ++ later)).report z sink := by
  refine ⟨fields (Char.ofUInt8 delimiter) header, isRecord_iff.2 rfl, ?_⟩
  intro start now taken
  obtain ⟨rows, are, holds⟩ := (Collector.holds_ofHeader delimiter header).feed history
  have length : rows.length = taken.length := are.length_eq.symm
  have same (later : List String) : start.feed (taken ++ later) = start.feed (history ++ later) := by
    rw [Collector.feed_append, Collector.feed_append, Collector.feed_taken]
  refine ⟨⟨holds.delimiter_eq, holds.table.labels_eq, ?_, ?_, ?_⟩, ?_, fun later => ⟨same later, ?_, ?_⟩⟩
  · rw [holds.table.width_eq, List.length_map]
  · rw [holds.table.rowCount_eq, ← length, List.nil_append]
  · rw [holds.table.rowCount_eq]
    exact holds.table.size_eq
  · intro line record next fault? fields offered
    have step := holds.offer_eq fields offered
    rwa [List.length_map, List.nil_append, length] at step
  · rw [Collector.replies_append, Collector.replies_append, Collector.replies_taken,
      Collector.feed_taken, List.drop_left' (Collector.length_replies start history)]
  · exact fun z sink => by rw [same later]

end ColumnStats
