import ColumnStats.Proofs.Rows
import ColumnStats.Report

/-!
# Reports into a sink that does not fail

* `Sink.Unfailing`, `Sink.received`: such a sink, and all bytes that were written to it;
* `Report.ofColumns_unfailing`: **the lines of the columns before the first one without a summary
  are written, then the sink is flushed once**;
* `Table.Holds.report_cases`: a table of at least two rows is reported as a whole, one of fewer not
  at all;
* `Summary.lineFeed_notMem_text`: the text of a summary has no line feed if its label has none.
-/

namespace ColumnStats

open Text

/-! ## Sinks -/

namespace Sink

/-- The device has room for everything, and no flush fails. -/
structure Unfailing (sink : Sink) : Prop where
  room : sink.room = none
  flushFailure : sink.flushFailure = none

/-- All bytes that were written, on the device or held back. -/
def received (sink : Sink) : List UInt8 := sink.taken ++ sink.held

variable {sink : Sink}

theorem Unfailing.pass (h : sink.Unfailing) (bytes : List UInt8) :
    sink.pass bytes = ({ sink with taken := sink.taken ++ bytes, held := [] }, none) := by
  rw [Sink.pass, h.room]

theorem Unfailing.write (h : sink.Unfailing) (bytes : List UInt8) : ∃ written,
    sink.write bytes = (written, none) ∧ written.Unfailing ∧
      written.received = sink.received ++ bytes ∧ written.flushes = sink.flushes := by
  by_cases fits : (sink.held ++ bytes).length ≤ sink.capacity
  · refine ⟨{ sink with held := sink.held ++ bytes }, if_pos fits, ⟨h.room, h.flushFailure⟩, ?_, rfl⟩
    exact (List.append_assoc _ _ _).symm
  · refine ⟨{ sink with taken := sink.taken ++ (sink.held ++ bytes), held := [] }, ?_,
      ⟨h.room, h.flushFailure⟩, ?_, rfl⟩
    · exact (if_neg fits).trans (h.pass _)
    · simp [received]

theorem Unfailing.flush_eq (h : sink.Unfailing) : sink.flush = ({ sink with
    taken := sink.taken ++ sink.held, held := [], flushes := sink.flushes + 1 }, none) := by
  rw [Sink.flush, h.pass]
  simp only [h.flushFailure]

theorem Unfailing.flush (h : sink.Unfailing) : ∃ flushed, sink.flush = (flushed, none) ∧
    flushed.received = sink.received ∧ flushed.flushes = sink.flushes + 1 :=
  ⟨_, h.flush_eq, by simp [received], rfl⟩

end Sink

/-! ## Reports -/

theorem Column.summary_eq_error_iff {column : Column} {rows : Nat} {z : Binary64} {fault : Fault} :
    column.summary rows z = .error fault ↔ (column.values.size < 2 ∨ rows = 0) ∧
      fault = .tooFew column.label column.values.size := by
  rw [Column.summary]
  split
  next few => rw [and_iff_right few, Except.error.injEq, eq_comm]
  next enough =>
    constructor
    · intro h
      cases h
    · rintro ⟨few, -⟩
      exact absurd few enough

namespace Report

theorem close_unfailing {sink : Sink} (h : sink.Unfailing) (fault : Option Fault) :
    (close fault sink).fault = fault ∧ (close fault sink).sink.received = sink.received ∧
      (close fault sink).sink.flushes = sink.flushes + 1 := by
  obtain ⟨flushed, e, received, flushes⟩ := h.flush
  rw [close, e]
  exact ⟨rfl, received, flushes⟩

/-- **The lines of the columns before the first one without a summary are written, then the sink is
flushed once.** -/
theorem ofColumns_unfailing {sink : Sink} (h : sink.Unfailing) (rows : Nat) (z : Binary64)
    (columns : List Column) : ∃ summaries,
      (ofColumns rows z columns sink).sink.received =
        sink.received ++ summaries.flatMap Summary.line ∧
      (ofColumns rows z columns sink).sink.flushes = sink.flushes + 1 ∧
      ((ofColumns rows z columns sink).fault = none ∧
        List.Forall₂ (fun column summary => column.summary rows z = .ok summary) columns summaries ∨
      ∃ before column after fault, columns = before ++ column :: after ∧
        List.Forall₂ (fun column summary => column.summary rows z = .ok summary) before summaries ∧
        column.summary rows z = .error fault ∧
        (ofColumns rows z columns sink).fault = some fault) := by
  induction columns generalizing sink with
  | nil =>
    obtain ⟨fault, received, flushes⟩ := close_unfailing h none
    exact ⟨[], by rw [ofColumns, received]; simp, flushes, Or.inl ⟨fault, .nil⟩⟩
  | cons column columns ih =>
    rw [ofColumns]
    cases hc : column.summary rows z with
    | error fault =>
      obtain ⟨closed, received, flushes⟩ := close_unfailing h (some fault)
      exact ⟨[], by simpa using received, flushes,
        Or.inr ⟨[], column, columns, fault, rfl, .nil, hc, closed⟩⟩
    | ok summary =>
      obtain ⟨written, e, unfailing, received, flushes⟩ := h.write summary.line
      obtain ⟨summaries, received', flushes', ended⟩ := ih unfailing
      simp only [e]
      refine ⟨summary :: summaries, ?_, by rw [flushes', flushes], ?_⟩
      · rw [received', received, List.flatMap_cons, List.append_assoc]
      · rcases ended with ⟨fault, are⟩ | ⟨before, bad, after, fault, rfl, are, hbad, faulty⟩
        · exact Or.inl ⟨fault, .cons hc are⟩
        · exact Or.inr ⟨column :: before, bad, after, fault, rfl, .cons hc are, hbad, faulty⟩

end Report

/-- Every column of the table has the summary of its own length. -/
def Table.Summarized (table : Table) (z : Binary64) (summaries : List Summary) : Prop :=
  List.Forall₂ (fun column summary => column.summary column.values.size z = .ok summary)
    table.columns summaries

theorem Column.label_of_summary_eq {column : Column} {rows : Nat} {z : Binary64} {summary : Summary}
    (h : column.summary rows z = .ok summary) : summary.label = column.label := by
  rw [Column.summary] at h
  split at h
  · simp at h
  · rw [← Except.ok.inj h]

theorem Table.Summarized.map_label {table : Table} {z : Binary64} {summaries : List Summary}
    (h : table.Summarized z summaries) : summaries.map Summary.label = table.labels := by
  have labels : List.Forall₂ Eq (table.columns.map Column.label) (summaries.map Summary.label) := by
    rw [List.forall₂_map_left_iff, List.forall₂_map_right_iff]
    exact h.imp fun column summary own => (Column.label_of_summary_eq own).symm
  rw [List.forall₂_eq_eq_eq] at labels
  exact labels.symm

theorem Table.Summarized.unique {table : Table} {z : Binary64} {summaries summaries' : List Summary}
    (h : table.Summarized z summaries) (h' : table.Summarized z summaries') :
    summaries = summaries' :=
  List.right_unique_forall₂' (fun _ _ _ own own' => Except.ok.inj (own.symm.trans own')) h h'

theorem Table.Holds.report_of_two_le {table : Table} {labels : List String}
    {rows : List (List Binary64)} (h : table.Holds labels rows) (enough : 2 ≤ rows.length)
    {sink : Sink} (unfailing : sink.Unfailing) (z : Binary64) : ∃ summaries,
      table.Summarized z summaries ∧ (table.report z sink).fault = none ∧
        (table.report z sink).sink.received = sink.received ++ summaries.flatMap Summary.line ∧
        (table.report z sink).sink.flushes = sink.flushes + 1 := by
  obtain ⟨summaries, received, flushes, ended⟩ :=
    Report.ofColumns_unfailing unfailing table.rowCount z table.columns
  rcases ended with ⟨fault, are⟩ | ⟨before, column, after, fault, split, -, bad, -⟩
  · refine ⟨summaries, ?_, fault, received, flushes⟩
    refine ((List.forall₂_and_left _ _).2 ⟨h.size_eq, are⟩).imp ?_
    rintro column summary ⟨size, own⟩
    rwa [size, ← h.rowCount_eq]
  · -- no column is too short
    have size := h.size_eq column (by rw [split]; simp)
    have few := (Column.summary_eq_error_iff.1 bad).1
    rw [h.rowCount_eq] at few
    omega

theorem Table.Holds.report_eq_close {table : Table} {label : String} {labels : List String}
    {rows : List (List Binary64)} (h : table.Holds (label :: labels) rows) (few : rows.length < 2)
    (sink : Sink) (z : Binary64) :
    table.report z sink = Report.close (some (.tooFew label rows.length)) sink := by
  obtain ⟨column, columns, hc, rfl, -⟩ := List.map_eq_cons_iff.1 h.labels_eq
  have size := h.size_eq column (by rw [hc]; exact List.mem_cons_self)
  have refused : column.summary table.rowCount z = .error (.tooFew column.label rows.length) :=
    Column.summary_eq_error_iff.2 ⟨Or.inl (size ▸ few), by rw [size]⟩
  rw [Table.report, hc, Report.ofColumns, refused]

theorem Table.Holds.report_of_lt_two {table : Table} {label : String} {labels : List String}
    {rows : List (List Binary64)} (h : table.Holds (label :: labels) rows) (few : rows.length < 2)
    {sink : Sink} (unfailing : sink.Unfailing) (z : Binary64) :
    (table.report z sink).fault = some (.tooFew label rows.length) ∧
      (table.report z sink).sink.received = sink.received ∧
      (table.report z sink).sink.flushes = sink.flushes + 1 := by
  rw [h.report_eq_close few]
  exact Report.close_unfailing unfailing _

/-- A report on the rows under a header names the first column, or is written as a whole. -/
theorem Table.Holds.report_cases {table : Table} {delimiter : Char} {header : String}
    {rows : List (List Binary64)}
    (h : table.Holds ((fields delimiter header).map String.ofList) rows) {sink : Sink}
    (unfailing : sink.Unfailing) (z : Binary64) :
    (rows.length < 2 ∧ ∃ label labels, fields delimiter header = label :: labels ∧
      (table.report z sink).fault = some (.tooFew (String.ofList label) rows.length) ∧
      (table.report z sink).sink.received = sink.received ∧
      (table.report z sink).sink.flushes = sink.flushes + 1) ∨
    2 ≤ rows.length ∧ ∃ summaries, table.Summarized z summaries ∧
      (table.report z sink).fault = none ∧
      (table.report z sink).sink.received = sink.received ++ summaries.flatMap Summary.line ∧
      (table.report z sink).sink.flushes = sink.flushes + 1 := by
  rcases Nat.lt_or_ge rows.length 2 with few | enough
  · obtain ⟨label, labels, split⟩ := List.exists_cons_of_ne_nil (fields_ne_nil delimiter header)
    rw [split, List.map_cons] at h
    exact Or.inl ⟨few, label, labels, split, h.report_of_lt_two few unfailing z⟩
  · exact Or.inr ⟨enough, h.report_of_two_le enough unfailing z⟩

/-! ## Lines -/

theorem Decimal.mem_pointed {places scaled : Nat} {c : Char} (h : c ∈ pointed places scaled) :
    c.isDigit ∨ c = '.' := by
  rw [pointed, List.mem_append, List.mem_cons] at h
  rcases h with h | h | h
  · exact Or.inl (Nat.isDigit_of_mem_toDigits (by omega) (by omega) h)
  · exact Or.inr h
  · exact Or.inl (Decimal.isDigit_of_mem_padded h)

theorem Binary64.mem_fixed {places : Nat} {x : Binary64} {c : Char} (h : c ∈ x.fixed places) :
    c.isDigit ∨ c ∈ "-.nafi".toList := by
  have sign {negative : Bool} (h : c ∈ Decimal.signText negative) : c ∈ "-.nafi".toList := by
    cases negative with
    | false => simp [Decimal.signText] at h
    | true =>
      rw [List.mem_singleton.1 h]
      decide
  have words : "nan".toList ++ "inf".toList ⊆ "-.nafi".toList := by decide
  cases x with
  | nan => exact Or.inr (words (List.mem_append_left _ h))
  | infinite negative =>
    rcases List.mem_append.1 h with h | h
    · exact Or.inr (sign h)
    · exact Or.inr (words (List.mem_append_right _ h))
  | finite negative units =>
    rcases List.mem_append.1 h with h | h
    · exact Or.inr (sign h)
    · exact (Decimal.mem_pointed h).imp_right fun e => by rw [e]; decide

theorem Binary64.notMem_fixed {c : Char} (digit : c.isDigit = false) (other : c ∉ "-.nafi".toList)
    (places : Nat) (x : Binary64) : c ∉ x.fixed places := by
  intro h
  rcases mem_fixed h with h | h
  · rw [digit] at h
    exact absurd h Bool.false_ne_true
  · exact other h

theorem Summary.lineFeed_notMem_text {summary : Summary} (h : '\n' ∉ summary.label.toList) :
    lineFeed ∉ encode summary.text := by
  rw [lineFeed_mem_encode_iff, Summary.text]
  simp only [String.toList_append, String.toList_ofList, List.mem_append, not_or]
  have unbroken := Binary64.notMem_fixed (c := '\n') (by decide) (by decide)
  exact ⟨⟨⟨⟨h, by decide⟩, unbroken _ _⟩, by decide⟩, unbroken _ _⟩

theorem Table.Summarized.unbroken {table : Table} {z : Binary64} {summaries : List Summary}
    (h : table.Summarized z summaries) (labels : ∀ label ∈ table.labels, '\n' ∉ label.toList) :
    ∀ summary ∈ summaries, lineFeed ∉ encode summary.text := by
  intro summary mem
  have label : summary.label ∈ table.labels := by
    rw [← h.map_label]
    exact List.mem_map_of_mem mem
  exact Summary.lineFeed_notMem_text (labels _ label)

theorem Summary.line_eq (summary : Summary) : summary.line = encode summary.text ++ [lineFeed] := by
  rw [Summary.line, encode_eq, encode_eq, String.toList_append, encodeChars_append]
  rfl

theorem Summary.flatMap_line (summaries : List Summary) : summaries.flatMap Summary.line =
    summaries.flatMap fun summary => encode summary.text ++ [lineFeed] := by
  rw [show Summary.line = _ from funext Summary.line_eq]

end ColumnStats
