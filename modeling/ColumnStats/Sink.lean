import ColumnStats.Device

/-!
# Sinks of bytes

A sink takes bytes into its device, which may have room for a limited number of them. Up to
`capacity` bytes are held back until more arrive or the sink is flushed; the device takes what fits
and fails when bytes are left over.

* `Sink.write`: takes bytes, or the part of them that fits;
* `Sink.flush`: passes on what is held back and counts the flush.
-/

namespace ColumnStats

/-- A device, what it has taken, and how it fails. -/
structure Sink where
  taken : List UInt8 := []
  held : List UInt8 := []
  /-- The number of bytes that may be held back. -/
  capacity : Nat := 0
  /-- The number of bytes that the device still takes; without a limit, all. -/
  room : Option Nat := none
  /-- The failure of a device without room. -/
  writeFailure : DeviceFailure := ⟨.other, ""⟩
  /-- The failure of every flush, if they fail. -/
  flushFailure : Option DeviceFailure := none
  /-- The number of flushes that reached the device. -/
  flushes : Nat := 0
  deriving DecidableEq, Repr

namespace Sink

/-- Passes bytes to the device: those that fit, and a failure if some do not. -/
def pass (sink : Sink) (bytes : List UInt8) : Sink × Option DeviceFailure :=
  match sink.room with
  | none => ({ sink with taken := sink.taken ++ bytes, held := [] }, none)
  | some room =>
    let passed := { sink with
      taken := sink.taken ++ bytes.take room
      held := []
      room := some (room - bytes.length) }
    (passed, if bytes.length ≤ room then none else some sink.writeFailure)

/-- Takes bytes; they are held back as long as they fit. -/
def write (sink : Sink) (bytes : List UInt8) : Sink × Option DeviceFailure :=
  let waiting := sink.held ++ bytes
  if waiting.length ≤ sink.capacity then ({ sink with held := waiting }, none)
  else sink.pass waiting

/-- Passes on what is held back, then flushes the device. -/
def flush (sink : Sink) : Sink × Option DeviceFailure :=
  match sink.pass sink.held with
  | (passed, some failure) => (passed, some failure)
  | (passed, none) => ({ passed with flushes := passed.flushes + 1 }, passed.flushFailure)

end Sink

end ColumnStats
