import ColumnStats.Decimal.Numeral
import ColumnStats.Decimal.Fixed

/-!
# The shortest text of a number

A number is written with the fewest significant digits that read back as the same number: of two
such decimals the nearer one, of two equally near the larger. It is always written out in full,
without an exponent and without zeros at the end of its fraction.

* `Decimal.candidate?`: the decimal with a given number of digits, if one reads back;
* `Binary64.shortest`: the text.
-/

namespace ColumnStats

-- powers are those of the core library
attribute [local instance (2000)] instPowNat

namespace Decimal

/-- The power of ten that brings every positive number to a whole part of 17 digits or more. -/
def scale : Nat := 340

/-- The decimal `coefficient * 10 ^ exponent` reads back as `units`. -/
def readsBack (units coefficient : Nat) (exponent : Int) : Bool :=
  match Numeral.nearest false coefficient exponent with
  | .finite _ units' _ => units' = units
  | _ => false

/-- The decimal with `count` significant digits that reads back as `units`: one of the two around the
exact value. -/
def candidate? (units count : Nat) : Option (Nat × Int) :=
  let scaled := units * 10 ^ scale / unitsPerOne
  let dropped := (Nat.toDigits 10 scaled).length - count
  let lower := scaled / 10 ^ dropped
  let exponent : Int := dropped - scale
  let lowerNearer : Bool :=
    2 * units * 10 ^ scale < (2 * lower + 1) * 10 ^ dropped * unitsPerOne
  match readsBack units lower exponent, readsBack units (lower + 1) exponent with
  | true, true => some (if lowerNearer then lower else lower + 1, exponent)
  | true, false => some (lower, exponent)
  | false, true => some (lower + 1, exponent)
  | false, false => none

/-- The digits and the exponent of the shortest decimal; 17 digits always suffice. -/
def shortestDigits (units : Nat) : Nat × Int :=
  ((List.range 17).findSome? fun i => candidate? units (i + 1)).getD (0, 0)

/-- A fraction without the zeros at its end, behind a point if anything is left. -/
def fractionText (digits : List Char) : List Char :=
  match (digits.reverse.dropWhile (· = '0')).reverse with
  | [] => []
  | kept => '.' :: kept

/-- The decimal `coefficient * 10 ^ exponent`, written out. -/
def positional (coefficient : Nat) (exponent : Int) : List Char :=
  let places := (-exponent).toNat
  let shifted := coefficient * 10 ^ exponent.toNat
  Nat.toDigits 10 (shifted / 10 ^ places) ++
    fractionText (if places = 0 then [] else padded places (shifted % 10 ^ places))

end Decimal

open Decimal

/-- The shortest text of a number; `NaN`, `inf` and `-inf` for what is not finite. -/
def Binary64.shortest : Binary64 → List Char
  | nan => "NaN".toList
  | infinite negative => signText negative ++ "inf".toList
  | finite negative units _ =>
    signText negative ++
      if units = 0 then ['0'] else
        let (coefficient, exponent) := shortestDigits units
        positional coefficient exponent

end ColumnStats
