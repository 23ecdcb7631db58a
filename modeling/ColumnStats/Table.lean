import ColumnStats.Binary64.Basic

/-!
# Tables

A table holds labelled columns of numbers and the number of rows that were appended to it.

* `Table.ofLabels`, `Table.pushRow`: an empty table, and one more row;
* `Table.agrees`: equality as numbers compare;
* `Table.edit?`: changes of single columns, which leave the row count alone.
-/

namespace ColumnStats

/-- A labelled series of numbers. -/
structure Column where
  label : String
  values : Array Binary64
  deriving DecidableEq

/-- Columns in the order of the header, and the number of rows appended. -/
structure Table where
  columns : List Column
  rowCount : Nat
  deriving DecidableEq

/-- Both columns have the same label and numerically equal values. -/
def Column.agrees (x y : Column) : Bool :=
  x.label = y.label && x.values.isEqv y.values Binary64.eqv

namespace Table

/-- The table without columns. -/
def empty : Table := ⟨[], 0⟩

/-- One empty column for each label. -/
def ofLabels (labels : List String) : Table := ⟨labels.map fun label => ⟨label, #[]⟩, 0⟩

/-- The number of columns. -/
def width (table : Table) : Nat := table.columns.length

/-- The labels of the columns, in their order. -/
def labels (table : Table) : List String := table.columns.map Column.label

/-- Appends the values to the columns from the left; what has no partner is left alone. -/
def pushValues : List Column → List Binary64 → List Column
  | column :: columns, value :: row =>
    { column with values := column.values.push value } :: pushValues columns row
  | columns, _ => columns

/-- Appends one value to each column; the row is as wide as the table. -/
def pushRow (table : Table) (row : List Binary64) : Table where
  columns := pushValues table.columns row
  rowCount := table.rowCount + 1

/-- Both tables have as many rows and columns that agree one by one. -/
def agrees (x y : Table) : Bool :=
  x.rowCount = y.rowCount && x.columns.isEqv y.columns Column.agrees

/-- A change from outside, which need not keep columns and row count in step. -/
inductive Edit where
  | setValues (column : Nat) (values : Array Binary64)
  | rename (column : Nat) (label : String)
  | pushColumn (column : Column)
  | popColumn

/-- Changes the column at a position, if there is one. -/
def modifyColumn? (table : Table) (position : Nat) (change : Column → Column) : Option Table :=
  if position < table.width then
    some { table with columns := table.columns.modify position change }
  else none

/-- Applies a change; refused where it names a column that does not exist. -/
def edit? (table : Table) : Edit → Option Table
  | .setValues column values => table.modifyColumn? column fun old => { old with values }
  | .rename column label => table.modifyColumn? column fun old => { old with label }
  | .pushColumn column => some { table with columns := table.columns ++ [column] }
  | .popColumn => some { table with columns := table.columns.dropLast }

@[simp] theorem labels_ofLabels (labels : List String) : (ofLabels labels).labels = labels := by
  simp [ofLabels, Table.labels, Function.comp_def]

theorem map_label_pushValues (columns : List Column) (row : List Binary64) :
    (pushValues columns row).map Column.label = columns.map Column.label := by
  induction columns generalizing row with
  | nil => cases row <;> rfl
  | cons column columns ih =>
    cases row with
    | nil => rfl
    | cons value row => rw [pushValues, List.map_cons, List.map_cons, ih]

@[simp] theorem labels_pushRow (table : Table) (row : List Binary64) :
    (table.pushRow row).labels = table.labels :=
  map_label_pushValues table.columns row

theorem length_labels (table : Table) : table.labels.length = table.width :=
  List.length_map Column.label

@[simp] theorem width_pushRow (table : Table) (row : List Binary64) :
    (table.pushRow row).width = table.width := by
  rw [← length_labels, labels_pushRow, length_labels]

end Table

end ColumnStats
