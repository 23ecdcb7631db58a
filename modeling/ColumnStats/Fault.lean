import ColumnStats.Device

/-!
# What ends a run

* `Fault.message`: the wording of a fault;
* `Fault.cause?`: the wording of what lies behind it, if anything does;
* `isMalformed`, `isUndefined`, `isAbandoned`: the kinds that callers tell apart.
-/

namespace ColumnStats

/-- Why a line could not be read. -/
inductive ReadFailure where
  | notText
  | device (failure : DeviceFailure)
  deriving DecidableEq, Repr

/-- The wording of a failure; a device has its own. -/
def ReadFailure.text : ReadFailure → String
  | notText => "stream did not contain valid UTF-8"
  | device failure => failure.text

/-- What ends a run. Lines are counted from one, the header being the first. -/
inductive Fault where
  /-- A row has another number of fields than the header. -/
  | width (line expected found : Nat)
  /-- A field of a row is not a number. -/
  | notNumber (line : Nat) (column field : String)
  /-- A column has too few values for a deviation. -/
  | tooFew (column : String) (values : Nat)
  | unreadable (failure : ReadFailure)
  | unwritable (failure : DeviceFailure)
  deriving DecidableEq, Repr

namespace Fault

/-- The wording of a fault, without what lies behind it. -/
def message : Fault → String
  | width line expected found => s!"line {line}: expected {expected} fields, found {found}"
  | notNumber line column field => s!"line {line}, column '{column}': '{field}' is not a number"
  | tooFew column values => s!"column '{column}': need at least 2 observations, got {values}"
  | unreadable _ => "reading input"
  | unwritable _ => "writing output"

/-- The wording of what lies behind a fault. -/
def cause? : Fault → Option String
  | notNumber _ _ field =>
    some (if field = "" then "cannot parse float from empty string" else "invalid float literal")
  | unreadable failure => some failure.text
  | unwritable failure => some failure.text
  | _ => none

/-- The fault with its cause behind a colon. -/
def description (fault : Fault) : String :=
  match fault.cause? with
  | some cause => fault.message ++ ": " ++ cause
  | none => fault.message

/-- A row does not have the form of a row. -/
def isMalformed : Fault → Bool
  | width .. => true
  | notNumber .. => true
  | _ => false

/-- The statistics of a column are not defined. -/
def isUndefined : Fault → Bool
  | tooFew .. => true
  | _ => false

/-- Nobody reads the output any more. -/
def isAbandoned : Fault → Bool
  | unwritable failure => failure.kind = .brokenPipe
  | _ => false

end Fault

end ColumnStats
