import ColumnStats.Fault
import ColumnStats.Text.Bytes

/-!
# Sources of lines

A source holds bytes and may fail once on the way. A line ends at a line feed, and one carriage
return directly before it is dropped; bytes after the last line feed are a line as well, unless
there are none. Each line must be UTF-8 on its own.

* `completeLines`, `lineBytes`: the lines of a byte string;
* `Source.lines`: the lines as they are read, up to and including the failure.
-/

namespace ColumnStats

/-- The device fails after it has delivered some bytes. -/
structure ReadFault where
  position : Nat
  failure : DeviceFailure
  deriving DecidableEq, Repr

/-- Bytes to be read, and where reading them fails. -/
structure Source where
  bytes : List UInt8
  fault : Option ReadFault := none
  deriving DecidableEq, Repr

/-- The byte that ends a line. -/
def lineFeed : UInt8 := 10

/-- The byte that may stand before a line feed. -/
def carriageReturn : UInt8 := 13

/-- Drops one carriage return at the end. -/
def dropReturn (line : List UInt8) : List UInt8 :=
  if line.getLast? = some carriageReturn then line.dropLast else line

/-- The lines that end at a line feed. -/
def completeLines (bytes : List UInt8) : List (List UInt8) :=
  (bytes.splitOn lineFeed).dropLast.map dropReturn

/-- What follows the last line feed. -/
def lastPiece (bytes : List UInt8) : List UInt8 :=
  (bytes.splitOn lineFeed).getLastD []

/-- All lines; the rest after the last line feed is one unless it is empty. -/
def lineBytes (bytes : List UInt8) : List (List UInt8) :=
  let rest := lastPiece bytes
  if rest = [] then completeLines bytes else completeLines bytes ++ [rest]

/-- A line as a text, or a failure where it is none. -/
def readLine (line : List UInt8) : Except ReadFailure String :=
  match Text.decode? line with
  | some text => .ok text
  | none => .error .notText

namespace Source

/-- The failure that reading runs into: an interruption is tried again, and a position beyond the
end is never reached. -/
def fault? (source : Source) : Option ReadFault :=
  source.fault.filter fun fault =>
    fault.failure.kind ≠ .interrupted ∧ fault.position ≤ source.bytes.length

/-- The lines as they are read. A failure takes the place of the line that it cuts short. -/
def lines (source : Source) : List (Except ReadFailure String) :=
  match source.fault? with
  | none => (lineBytes source.bytes).map readLine
  | some fault =>
    (completeLines (source.bytes.take fault.position)).map readLine ++
      [.error (.device fault.failure)]

end Source

end ColumnStats
