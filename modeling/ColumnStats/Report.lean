import ColumnStats.Journal.Event
import ColumnStats.Sink
import ColumnStats.Text.Bytes

/-!
# Reports

A report writes one line for each column of a table, in order. It ends early where a column has no
summary, after a flush, and where the sink fails; otherwise it ends with a flush.

* `Table.report`: writes the report of a table.
-/

namespace ColumnStats

/-- How a report ended: the fault if there was one, the sink, and the events on the way. -/
structure Report where
  fault : Option Fault
  sink : Sink
  events : List Event

/-- The bytes of a line of the report. -/
def Summary.line (summary : Summary) : List UInt8 := Text.encode (summary.text ++ "\n")

namespace Report

/-- Flushes the sink and ends with `fault`, or with the failure of the flush. -/
def close (fault : Option Fault) (sink : Sink) : Report :=
  match sink.flush with
  | (flushed, some failure) => ⟨some (.unwritable failure), flushed, []⟩
  | (flushed, none) => ⟨fault, flushed, []⟩

/-- Writes the lines of the columns one after the other. -/
def ofColumns (rows : Nat) (z : Binary64) : List Column → Sink → Report
  | [], sink => close none sink
  | column :: rest, sink =>
    match column.summary rows z with
    | .error fault => close (some fault) sink
    | .ok summary =>
      match sink.write summary.line with
      | (written, some failure) => ⟨some (.unwritable failure), written, [.summarized summary]⟩
      | (written, none) =>
        let report := ofColumns rows z rest written
        { report with events := .summarized summary :: report.events }

end Report

/-- Writes the lines of all columns, up to the first fault, then flushes. -/
def Table.report (table : Table) (z : Binary64) (sink : Sink) : Report :=
  Report.ofColumns table.rowCount z table.columns sink

end ColumnStats
