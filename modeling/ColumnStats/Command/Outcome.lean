import ColumnStats.Journal.Record
import ColumnStats.Sink

/-!
# Outcomes of a command

A command writes to its standard output, which is held back in blocks, and to its standard error.

* `Output.sink`: the sink of each kind of standard output;
* `Outcome`: exit status and what was written.
-/

namespace ColumnStats.Command

/-- What stands behind the standard output. -/
inductive Output where
  /-- A reader that takes everything. -/
  | pipe
  /-- A pipe whose reader is gone. -/
  | closed
  /-- A device without room. -/
  | full
  deriving DecidableEq, Repr

/-- The bytes that a command holds back before it writes. -/
def blockSize : Nat := 8192

/-- A sink for each kind of output, with the failure of its device. -/
def Output.sink : Output → Sink
  | pipe => { capacity := blockSize }
  | closed =>
    { capacity := blockSize, room := some 0
      writeFailure := ⟨.brokenPipe, "Broken pipe (os error 32)"⟩ }
  | full =>
    { capacity := blockSize, room := some 0
      writeFailure := ⟨.other, "No space left on device (os error 28)"⟩ }

/-- The exit status of a command and what it wrote. -/
structure Outcome where
  status : Nat
  stdout : List UInt8
  stderr : String

/-- The level of records that are shown where no other is asked for. -/
def defaultLevel : Option Level := some .error

end ColumnStats.Command
