import ColumnStats.Collector
import ColumnStats.Source

/-!
# Analyses

An analysis reads a whole source, the header first, and reports on the table. A source without any
line gives the empty table and no report.

* `analyze`: the run of a source into a sink.
-/

namespace ColumnStats

/-- Reads a header and rows, then writes the report. -/
def analyze (settings : Settings) (source : Source) (sink : Sink) : Run :=
  match source.lines with
  | [] => ⟨.ok .empty, sink, [.emptyInput]⟩
  | .error failure :: _ => ⟨.error (.unreadable failure), sink, []⟩
  | .ok header :: rest =>
    let start := Collector.ofHeader settings.delimiter header
    let (collector, fault?) := start.addLines rest
    let events := start.headerEvent :: collector.rowEvents
    match fault? with
    | some fault => ⟨.error fault, sink, events⟩
    | none =>
      let run := collector.report settings.z sink
      { run with events := events ++ run.events }

end ColumnStats
