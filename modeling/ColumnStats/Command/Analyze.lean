import ColumnStats.Command.Outcome
import ColumnStats.Analysis

/-!
# The analyzing command

Analyzes its standard input with the standard settings. A reader of the output that goes away is no
failure; every other fault is one line on standard error.

* `Command.analyze`: the outcome for an input.
-/

namespace ColumnStats.Command

/-- Where the records of the analyzing command come from. -/
def analyzeTarget : String := "reducedata"

/-- The last record of a run that succeeds. -/
def summaryRecord (table : Table) : Record :=
  ⟨.info, analyzeTarget, s!"summarised {table.width} columns over {table.rowCount} rows"⟩

/-- The last record of a run that fails. -/
def faultRecord (fault : Fault) : Record :=
  ⟨.error, analyzeTarget, "reducing stdin: " ++ fault.description⟩

/-- The exit status and the last record of a run. -/
def conclude : Except Fault Table → Nat × List Record
  | .ok table => (0, [summaryRecord table])
  | .error fault => if fault.isAbandoned then (0, []) else (1, [faultRecord fault])

/-- Analyzes an input to a standard output; shows the records down to a level. -/
def analyze (threshold : Option Level) (output : Output) (input : List UInt8) : Outcome :=
  let run := ColumnStats.analyze {} ⟨input, none⟩ output.sink
  let (status, last) := conclude run.outcome
  { status
    stdout := run.sink.taken
    stderr := Record.lines threshold (run.events.map Event.record ++ last) }

end ColumnStats.Command
