import ColumnStats.Command.Analyze
import ColumnStats.Command.Sample

/-!
# The command line

`sample [CASE] [ROWS]` writes a sample table; everything else analyzes the standard input. The
variable `LOG_LEVEL` names the level down to which records are shown.
-/

namespace ColumnStats.Command

/-- The level that a setting asks for: errors where it is not set, none where it names no level. -/
def threshold (setting? : Option String) : Option Level :=
  match setting? with
  | none => defaultLevel
  | some name => Level.ofName? name

/-- The outcome of the command that the first argument names. -/
def outcome (threshold : Option Level) (output : Output) (input : List UInt8) :
    List String → Outcome
  | "sample" :: arguments => sample threshold output arguments
  | _ => analyze threshold output input

/-- Writes an outcome; says what the standard output turned out to be. -/
def emit (outcome : Outcome) : IO Output := do
  let stdout ← IO.getStdout
  try
    stdout.write ⟨outcome.stdout.toArray⟩
    stdout.flush
    return .pipe
  catch
    | .resourceVanished .. => return .closed
    | _ => return .full

/-- Reads everything up to the end of a stream. -/
partial def readAll (stream : IO.FS.Stream) (read : ByteArray) : IO ByteArray := do
  let block ← stream.read 65536
  if block.isEmpty then return read else readAll stream (read ++ block)

end ColumnStats.Command

open ColumnStats.Command in
/-- Runs the command line; an output that fails has the outcome of such an output. -/
def main (arguments : List String) : IO UInt32 := do
  let level := threshold (← IO.getEnv "LOG_LEVEL")
  let input ← match arguments with
    | "sample" :: _ => pure ByteArray.empty
    | _ => readAll (← IO.getStdin) ByteArray.empty
  let run (output : Output) := outcome level output input.data.toList arguments
  let piped := run .pipe
  let result ← match ← emit piped with
    | .pipe => pure piped
    | found => pure (run found)
  IO.eprint result.stderr
  return UInt32.ofNat result.status
