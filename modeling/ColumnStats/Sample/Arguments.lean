import ColumnStats.Sample.Shape

/-!
# Arguments of a sample

The name of a shape and a number of rows, both of which may be left out. The shape is read first.

* `readCount`: a row count, with an optional plus sign;
* `Arguments.ofList`: the arguments, or the first that cannot be read.
-/

namespace ColumnStats.Sample

/-- Why a text is no row count. -/
inductive CountFault where
  | empty
  | invalidDigit
  | tooLarge
  deriving DecidableEq, Repr

/-- The wording of a fault in a row count. -/
def CountFault.text : CountFault → String
  | empty => "cannot parse integer from empty string"
  | invalidDigit => "invalid digit found in string"
  | tooLarge => "number too large to fit in target type"

/-- Row counts are smaller than this. -/
def countLimit : Nat := UInt64.size

/-- Reads digits after the number `count`, and stops at the first that does not fit. -/
def readDigits (count : Nat) : List Char → Except CountFault Nat
  | [] => .ok count
  | c :: rest =>
    if c.isDigit then
      let next := 10 * count + (c.toNat - '0'.toNat)
      if next < countLimit then readDigits next rest else .error .tooLarge
    else .error .invalidDigit

/-- Reads a row count: one plus sign may stand before its digits. -/
def readCount : List Char → Except CountFault Nat
  | [] => .error .empty
  | ['+'] => .error .invalidDigit
  | '+' :: digits => readDigits 0 digits
  | digits => readDigits 0 digits

/-- Why arguments cannot be read. -/
inductive ArgumentFault where
  | unknownShape (name : String)
  | rowCount (text : String) (fault : CountFault)
  deriving DecidableEq, Repr

namespace ArgumentFault

/-- The wording of a fault, without what lies behind it. -/
def message : ArgumentFault → String
  | unknownShape name => s!"unknown case '{name}'"
  | rowCount text _ => s!"row count '{text}' is not a non-negative integer"

/-- The wording of what lies behind a fault. -/
def cause? : ArgumentFault → Option String
  | unknownShape _ => none
  | rowCount _ fault => some fault.text

end ArgumentFault

/-- The shape and the number of rows asked for. -/
structure Arguments where
  shape : Shape := .valid
  rows : Nat := 30
  deriving DecidableEq, Repr

namespace Arguments

/-- Reads a shape and a row count; further arguments are ignored. -/
def ofList : List String → Except ArgumentFault Arguments
  | [] => .ok {}
  | name :: rest =>
    match Shape.ofName? name with
    | none => .error (.unknownShape name)
    | some shape =>
      match rest with
      | [] => .ok { shape }
      | text :: _ =>
        match readCount text.toList with
        | .error fault => .error (.rowCount text fault)
        | .ok rows => .ok { shape, rows }

end Arguments

end ColumnStats.Sample
