/-!
# Failing devices

What a device reports when it can neither deliver nor take bytes.
-/

namespace ColumnStats

/-- What kind of failure it is, as far as the program tells failures apart. -/
inductive FailureKind where
  /-- Nobody reads the output any more. -/
  | brokenPipe
  /-- The transfer may be tried again. -/
  | interrupted
  | other
  deriving DecidableEq, Repr

/-- A failure of a device, with the device's own words. -/
structure DeviceFailure where
  kind : FailureKind
  text : String
  deriving DecidableEq, Repr

end ColumnStats
