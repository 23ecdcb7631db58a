import ColumnStats.Decimal.Numeral
import ColumnStats.Report
import ColumnStats.Settings
import ColumnStats.Text.Blank

/-!
# Collectors

A collector begins with a header line, collects rows into a table and ends with a report. A row is
taken as a whole or refused as a whole: its fields are read from left to right before they are
counted, and the first that is not a number is named.

* `Collector.ofHeader`: one column for each field of the header;
* `Collector.addLine`: takes a row, or refuses it; `Collector.offer`: the same in place;
* `addLines_of_addLine`, `addLines_of_refused`: many lines are taken one by one, until the first
  that is refused;
* `Collector.report`: reports on the table.
-/

namespace ColumnStats

/-- The fields of a line, without the blanks around them. -/
def fields (delimiter : Char) (line : String) : List (List Char) :=
  (line.toList.splitOn delimiter).map Text.trim

/-- A table that takes rows, and the separator of their fields. -/
structure Collector where
  table : Table
  delimiter : Char

/-- How a run ended: with a table or a fault, the sink, and the events on the way. -/
structure Run where
  outcome : Except Fault Table
  sink : Sink
  events : List Event

namespace Collector

/-- An empty column for each field of the header line. -/
def ofHeader (delimiter : UInt8) (line : String) : Collector where
  table := .ofLabels ((fields (Char.ofUInt8 delimiter) line).map String.ofList)
  delimiter := Char.ofUInt8 delimiter

/-- The number of the next line: the header is the first, and all rows so far were taken. -/
def nextLine (collector : Collector) : Nat := collector.table.rowCount + 2

/-- The label of a column, or its number after a sign where the header has none. -/
def columnName (labels : List String) (position : Nat) : String :=
  labels[position]?.getD s!"#{position + 1}"

/-- The number of a field; a fault names the line, the column and the field as it stands. -/
def readField (collector : Collector) (field : List Char) (position : Nat) :
    Except Fault Binary64 :=
  match Binary64.ofText? field with
  | some value => .ok value
  | none =>
    let column := columnName collector.table.labels position
    .error (.notNumber collector.nextLine column (String.ofList field))

/-- The numbers of a line. Fields are read before they are counted. -/
def readRow (collector : Collector) (line : String) : Except Fault (List Binary64) := do
  let row ← (fields collector.delimiter line).zipIdx.mapM fun (field, position) =>
    collector.readField field position
  if row.length = collector.table.width then .ok row
  else .error (.width collector.nextLine collector.table.width row.length)

/-- Appends numbers to the table as one more row. -/
def addRow (collector : Collector) (row : List Binary64) : Collector :=
  { collector with table := collector.table.pushRow row }

/-- Takes a line as one more row. -/
def addLine (collector : Collector) (line : String) : Except Fault Collector :=
  (collector.readRow line).map collector.addRow

/-- Takes a line in place: the collector afterwards, and the fault if the line was refused. -/
def offer (collector : Collector) (line : String) : Collector × Option Fault :=
  match collector.addLine line with
  | .ok next => (next, none)
  | .error fault => (collector, some fault)

/-- Takes lines until the first that cannot be read or is refused. -/
def addLines (collector : Collector) : List (Except ReadFailure String) → Collector × Option Fault
  | [] => (collector, none)
  | .error failure :: _ => (collector, some (.unreadable failure))
  | .ok line :: rest =>
    match collector.readRow line with
    | .error fault => (collector, some fault)
    | .ok row => (collector.addRow row).addLines rest

theorem addLines_of_addLine {collector next : Collector} {line : String}
    (h : collector.addLine line = .ok next) (rest : List (Except ReadFailure String)) :
    collector.addLines (.ok line :: rest) = next.addLines rest := by
  cases hr : collector.readRow line with
  | error fault => simp [addLine, hr, Except.map] at h
  | ok row =>
    obtain rfl : collector.addRow row = next := by simpa [addLine, hr, Except.map] using h
    simp [addLines, hr]

theorem addLines_of_refused {collector : Collector} {line : String} {fault : Fault}
    (h : collector.addLine line = .error fault) (rest : List (Except ReadFailure String)) :
    collector.addLines (.ok line :: rest) = (collector, some fault) := by
  cases hr : collector.readRow line with
  | ok row => simp [addLine, hr, Except.map] at h
  | error fault' =>
    obtain rfl : fault' = fault := by simpa [addLine, hr, Except.map] using h
    simp [addLines, hr]

/-- What is recorded of the header. -/
def headerEvent (collector : Collector) : Event := .headerRead collector.table.labels

/-- What is recorded of the rows, each with the number of its line. -/
def rowEvents (collector : Collector) : List Event :=
  (List.range collector.table.rowCount).map fun row => .rowRead (row + 2)

/-- Reports on the rows so far; the run ends with the table unless the report has a fault. -/
def report (collector : Collector) (z : Binary64) (sink : Sink) : Run :=
  let table := collector.table
  let report := table.report z sink
  { outcome := match report.fault with
      | some fault => .error fault
      | none => .ok table
    sink := report.sink
    events := .reporting table.rowCount table.width :: report.events }

end Collector

end ColumnStats
