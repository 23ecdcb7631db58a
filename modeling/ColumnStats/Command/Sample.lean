import ColumnStats.Command.Outcome
import ColumnStats.Sample.Arguments
import ColumnStats.Sample.Records
import ColumnStats.Text.Bytes

/-!
# The sampling command

Writes the sample that its arguments ask for. Nothing is written before they are all read.

* `Command.sample`: the outcome for arguments.
-/

namespace ColumnStats.Command

open ColumnStats.Sample

/-- Where the records of the sampling command come from. -/
def sampleTarget : String := "generate_sample"

/-- The record of a sample that was written. -/
def sampleRecord (shape : Shape) (rows : Nat) : Record :=
  let message :=
    if shape = .empty then "wrote empty input"
    else s!"wrote {shape.title} input with {rows} rows of {series.length} columns"
  ⟨.info, sampleTarget, message⟩

/-- What a failing command says: the error, and its cause in a paragraph of its own. -/
def failureText (message : String) (cause? : Option String) : String :=
  "Error: " ++ message ++ "\n" ++
    match cause? with
    | none => ""
    | some cause => "\nCaused by:\n    " ++ cause ++ "\n"

/-- Writes lines until the first that fails. -/
def writeLines (sink : Sink) : List String → Sink × Option DeviceFailure
  | [] => (sink, none)
  | line :: rest =>
    match sink.write (Text.encode line) with
    | (written, some failure) => (written, some failure)
    | (written, none) => writeLines written rest

/-- Writes lines and flushes; what a failure is reported as. -/
def writeBlock (sink : Sink) (lines : List String) : Sink × Option String :=
  match writeLines sink lines with
  | (written, some failure) => (written, some (failureText failure.text none))
  | (written, none) =>
    match written.flush with
    | (flushed, some failure) => (flushed, some (failureText "flushing stdout" (some failure.text)))
    | (flushed, none) => (flushed, none)

/-- The blocks of lines of a shape: the records, and the blank line after them. -/
def blocks (shape : Shape) (rows : Nat) : List (List String) :=
  match shape with
  | .empty => []
  | .blankLine => [(records shape rows).map recordLine, ["\n"]]
  | _ => [(records shape rows).map recordLine]

/-- Writes blocks until the first that fails. -/
def writeBlocks (sink : Sink) : List (List String) → Sink × Option String
  | [] => (sink, none)
  | block :: rest =>
    match writeBlock sink block with
    | (written, some report) => (written, some report)
    | (written, none) => writeBlocks written rest

/-- Writes a sample to a standard output; shows the records down to a level. -/
def sample (threshold : Option Level) (output : Output) (arguments : List String) : Outcome :=
  match Arguments.ofList arguments with
  | .error fault => ⟨1, [], failureText fault.message fault.cause?⟩
  | .ok asked =>
    let rows := asked.shape.rowCount asked.rows
    match writeBlocks output.sink (blocks asked.shape rows) with
    | (sink, some report) => ⟨1, sink.taken, report⟩
    | (sink, none) => ⟨0, sink.taken, Record.lines threshold [sampleRecord asked.shape rows]⟩

end ColumnStats.Command
