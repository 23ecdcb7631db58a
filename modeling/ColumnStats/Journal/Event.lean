import ColumnStats.Decimal.Shortest
import ColumnStats.Journal.Record
import ColumnStats.Summary
import ColumnStats.Text.Quoted

/-!
# Events of an analysis

What happens in the course of an analysis, in the order in which it happens.

* `Event.record`: the log record of an event.
-/

namespace ColumnStats

/-- A step of an analysis that is worth a record. -/
inductive Event where
  /-- The input has no line at all. -/
  | emptyInput
  | headerRead (labels : List String)
  | rowRead (line : Nat)
  | reporting (rows columns : Nat)
  | summarized (summary : Summary)
  deriving DecidableEq

namespace Event

/-- Where the records about reading come from. -/
def readingTarget : String := "reducedata::data::loader"

/-- Where the records about summaries come from. -/
def summaryTarget : String := "reducedata::stats"

/-- The record of an event; numbers are written with their shortest digits. -/
def record : Event → Record
  | emptyInput => ⟨.debug, readingTarget, "empty input, nothing to reduce"⟩
  | headerRead labels =>
    ⟨.debug, readingTarget, s!"header: {labels.length} columns {Text.quoteList labels}"⟩
  | rowRead line => ⟨.trace, readingTarget, s!"line {line}: ingested"⟩
  | reporting rows columns =>
    ⟨.info, readingTarget, s!"reducing {rows} rows across {columns} columns"⟩
  | summarized summary =>
    let mean := String.ofList summary.mean.shortest
    let halfWidth := String.ofList summary.halfWidth.shortest
    ⟨.debug, summaryTarget, s!"column '{summary.label}': mean={mean} ci={halfWidth}"⟩

end Event

end ColumnStats
