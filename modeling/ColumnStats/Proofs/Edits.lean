import ColumnStats.Proofs.Histories
import ColumnStats.Proofs.Truncation

/-!
# Reports on edited tables

A table is built from labels or copied from a collector, and its columns are changed afterwards. The
number of rows that it has taken does not change with them, so that columns and rows no longer go
together.

* `Table.editAll?`: changes one after the other; `rowCount_of_editAll?`: **no change counts as a row**;
* `Table.Origin`: where a table comes from; `Origin.rowCount_table`: the rows that it has taken;
* `Report.fault_ofColumns`: a report that can be written **names the first degenerate column**;
* `short_columns_are_named`: with rows, this is the first column that is too short; without rows it
  is the first column, `refilled_column_is_refused` however long.
-/

namespace ColumnStats

/-! ## Changes -/

namespace Table

/-- Applies changes one after the other; refused as soon as one of them is. -/
def editAll? (table : Table) (changes : List Edit) : Option Table := changes.foldlM edit? table

theorem rowCount_of_modifyColumn? {table next : Table} {position : Nat} {change : Column → Column}
    (h : table.modifyColumn? position change = some next) : next.rowCount = table.rowCount := by
  unfold modifyColumn? at h
  split at h
  · cases h
    rfl
  · cases h

theorem rowCount_of_edit? {table next : Table} {change : Edit} (h : table.edit? change = some next) :
    next.rowCount = table.rowCount := by
  cases change with
  | setValues column values => exact rowCount_of_modifyColumn? h
  | rename column label => exact rowCount_of_modifyColumn? h
  | pushColumn column =>
    cases h
    rfl
  | popColumn =>
    cases h
    rfl

/-- **No change counts as a row.** -/
theorem rowCount_of_editAll? {table last : Table} {changes : List Edit}
    (h : table.editAll? changes = some last) : last.rowCount = table.rowCount := by
  induction changes generalizing table with
  | nil =>
    cases h
    rfl
  | cons change changes ih =>
    rw [editAll?, List.foldlM_cons] at h
    obtain ⟨next, first, others⟩ := Option.bind_eq_some_iff.1 h
    rw [ih others, rowCount_of_edit? first]

/-- Where a table comes from: built from labels, or copied from a collector to which lines were
offered. -/
inductive Origin where
  | labelled (labels : List String)
  | collected (delimiter : UInt8) (header : String) (history : List String)

namespace Origin

/-- The table that comes from there. -/
def table : Origin → Table
  | labelled labels => .ofLabels labels
  | collected delimiter header history => ((Collector.ofHeader delimiter header).feed history).table

/-- The number of rows that were taken; labels alone have none. -/
def rows : Origin → Nat
  | labelled _ => 0
  | collected delimiter header history =>
    ((Collector.ofHeader delimiter header).taken history).length

theorem rowCount_table (origin : Origin) : origin.table.rowCount = origin.rows := by
  cases origin with
  | labelled labels => rfl
  | collected delimiter header history =>
    obtain ⟨rows, are, holds⟩ := (Collector.holds_ofHeader delimiter header).feed history
    show ((Collector.ofHeader delimiter header).feed history).table.rowCount = _
    rw [holds.table.rowCount_eq, List.nil_append, ← are.length_eq]
    rfl

end Origin

end Table

/-! ## Reports -/

instance (column : Column) (rows : Nat) : Decidable (column.IsDegenerate rows) :=
  inferInstanceAs (Decidable (_ ∨ _))

/-- The fault of a column that is degenerate. -/
def Column.shortage (column : Column) : Fault := .tooFew column.label column.values.size

/-- A report that can be written **names the first degenerate column**, and has no other fault. -/
theorem Report.fault_ofColumns {sink : Sink} (h : sink.Unfailing) (rows : Nat) (z : Binary64)
    (columns : List Column) : (ofColumns rows z columns sink).fault =
      (columns.find? fun column => column.IsDegenerate rows).map Column.shortage := by
  induction columns generalizing sink with
  | nil => exact (close_unfailing h none).1
  | cons column columns ih =>
    rw [ofColumns]
    by_cases degenerate : column.IsDegenerate rows
    · simp only [Column.isDegenerate_iff.1 degenerate, List.find?_cons, degenerate, decide_true]
      exact (close_unfailing h _).1
    · obtain ⟨summary, own⟩ : ∃ summary, column.summary rows z = .ok summary := by
        cases hc : column.summary rows z with
        | ok summary => exact ⟨summary, rfl⟩
        | error fault => exact absurd (Column.summary_eq_error_iff.1 hc).1 degenerate
      obtain ⟨written, e, unfailing, -⟩ := h.write summary.line
      simp only [own, e, List.find?_cons, degenerate, decide_false]
      exact ih unfailing

section Refusals

variable {table : Table} {sink : Sink}

theorem Table.exists_tooFew_iff (unfailing : sink.Unfailing) (z : Binary64) :
    (∃ label values, (table.report z sink).fault = some (.tooFew label values)) ↔
      ∃ column ∈ table.columns, column.IsDegenerate table.rowCount := by
  rw [Table.report, Report.fault_ofColumns unfailing]
  constructor
  · rintro ⟨label, values, named⟩
    obtain ⟨column, found, -⟩ := Option.map_eq_some_iff.1 named
    exact ⟨column, List.mem_of_find?_eq_some found, by simpa using List.find?_some found⟩
  · rintro ⟨column, mem, degenerate⟩
    have found : (table.columns.find? fun column => column.IsDegenerate table.rowCount).isSome :=
      List.find?_isSome.2 ⟨column, mem, by simpa using degenerate⟩
    obtain ⟨first, found⟩ := Option.isSome_iff_exists.1 found
    exact ⟨first.label, first.values.size, by rw [found]; rfl⟩

theorem Table.exists_split_of_tooFew (unfailing : sink.Unfailing) {z : Binary64} {label : String}
    {values : Nat} (named : (table.report z sink).fault = some (.tooFew label values)) :
    ∃ before column after, table.columns = before ++ column :: after ∧
      (∀ other ∈ before, ¬ other.IsDegenerate table.rowCount) ∧
      column.IsDegenerate table.rowCount ∧ column.label = label ∧ column.values.size = values := by
  rw [Table.report, Report.fault_ofColumns unfailing] at named
  obtain ⟨column, found, shortage⟩ := Option.map_eq_some_iff.1 named
  obtain ⟨degenerate, before, after, split, regular⟩ := List.find?_eq_some_iff_append.1 found
  obtain ⟨e, e'⟩ := Fault.tooFew.inj shortage
  exact ⟨before, column, after, split, by simpa using regular, by simpa using degenerate, e, e'⟩

/-- **With rows, a table is refused for its first short column**, whose values are counted. Without
rows, its first column is named. -/
theorem short_columns_are_named (origin : Table.Origin) (edits : List Table.Edit)
    (edited : origin.table.editAll? edits = some table) (z : Binary64)
    (unfailing : sink.Unfailing) :
    let fault? := (table.report z sink).fault
    (0 < origin.rows →
      ((∃ label values, fault? = some (.tooFew label values)) ↔
        ∃ column ∈ table.columns, column.values.size < 2) ∧
      ∀ label values, fault? = some (.tooFew label values) →
        (∃ before column after, table.columns = before ++ column :: after ∧
          (∀ other ∈ before, 2 ≤ other.values.size) ∧
          column.label = label ∧ column.values.size = values) ∧
        values < 2 ∧ (Fault.tooFew label values).message =
          s!"column '{label}': need at least 2 observations, got {values}") ∧
    (origin.rows = 0 →
      ((∃ label values, fault? = some (.tooFew label values)) ↔ table.columns ≠ []) ∧
      ∀ label values, fault? = some (.tooFew label values) →
        ∃ column rest, table.columns = column :: rest ∧ column.label = label ∧
          (column.values.size < 2 → column.values.size = values)) := by
  intro fault?
  have rows : table.rowCount = origin.rows :=
    (Table.rowCount_of_editAll? edited).trans origin.rowCount_table
  have refused := @Table.exists_tooFew_iff table sink unfailing z
  refine ⟨fun taken => ?_, fun untaken => ?_⟩
  · have degenerate (column : Column) :
        column.IsDegenerate table.rowCount ↔ column.values.size < 2 := by
      unfold Column.IsDegenerate
      omega
    refine ⟨by simpa only [degenerate] using refused, fun label values named => ?_⟩
    obtain ⟨before, column, after, split, regular, short, e, e'⟩ :=
      Table.exists_split_of_tooFew unfailing named
    simp only [degenerate, Nat.not_lt] at regular short
    exact ⟨⟨before, column, after, split, regular, e, e'⟩, e' ▸ short, rfl⟩
  · have degenerate (column : Column) : column.IsDegenerate table.rowCount :=
      Or.inr (rows.trans untaken)
    refine ⟨refused.trans ?_, fun label values named => ?_⟩
    · simp only [degenerate, and_true, ne_eq, List.eq_nil_iff_forall_not_mem, not_forall, not_not]
    · obtain ⟨before, column, after, split, regular, -, e, e'⟩ :=
        Table.exists_split_of_tooFew unfailing named
      obtain rfl : before = [] :=
        List.eq_nil_iff_forall_not_mem.2 fun other mem => regular other mem (degenerate other)
      exact ⟨column, after, split, e, fun _ => e'⟩

/-- One row of two is taken, and a column with one value is pushed under another name. -/
theorem pushed_column_is_named :
    let origin := Table.Origin.collected 44 "a" ["1", "x", "3"]
    let edits := [Table.Edit.rename 0 "b", .pushColumn ⟨"c", #[.ofNat 7]⟩]
    ∃ table, origin.table.editAll? edits = some table ∧ ({} : Sink).Unfailing ∧ 0 < origin.rows ∧
      (table.report factor95 {}).fault = some (.tooFew "c" 1) ∧
      ∃ column ∈ table.columns, column.values.size < 2 := by
  intro origin edits
  have edited : (origin.table.editAll? edits).map
      (fun table => (table.report factor95 {}).fault) = some (some (.tooFew "c" 1)) := by
    decide +kernel
  have rows : 0 < origin.rows := by decide +kernel
  obtain ⟨table, edited, named⟩ := Option.map_eq_some_iff.1 edited
  have unfailing : ({} : Sink).Unfailing := ⟨rfl, rfl⟩
  obtain ⟨refused, -⟩ := (short_columns_are_named origin edits edited factor95 unfailing).1 rows
  exact ⟨table, edited, unfailing, rows, named, refused.1 ⟨_, _, named⟩⟩

/-- **A column may be long enough and still be refused**: no row was taken. -/
theorem refilled_column_is_refused :
    ∃ table, (Table.Origin.labelled ["a"]).table.editAll?
        [.setValues 0 #[.ofNat 1, .ofNat 2]] = some table ∧
      (∀ column ∈ table.columns, 2 ≤ column.values.size) ∧
      (table.report factor95 {}).fault = some (.tooFew "a" 2) := by
  refine ⟨⟨[⟨"a", #[.ofNat 1, .ofNat 2]⟩], 0⟩, rfl, by decide, rfl⟩

end Refusals

end ColumnStats
