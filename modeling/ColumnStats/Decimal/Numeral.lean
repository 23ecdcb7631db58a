import ColumnStats.Binary64.Basic

/-!
# Decimal numerals

The texts that stand for a number: an optional sign, then `inf`, `infinity` or `nan` in any case,
or ASCII digits with an optional point and at least one digit, optionally followed by `e` or `E`
and a signed exponent. The number is the one nearest to the exact decimal value.

* `Numeral.parse?`: reads a whole text, or refuses it;
* `Numeral.toBinary64`: the number that a numeral stands for;
* `Binary64.ofText?`: both in one step.
-/

namespace ColumnStats

-- powers are those of the core library
attribute [local instance (2000)] instPowNat

/-- A numeral that was read: a decimal has the value `coefficient * 10 ^ exponent`. -/
inductive Numeral where
  | nan
  | infinite (negative : Bool)
  | decimal (negative : Bool) (coefficient : Nat) (exponent : Int)
  deriving DecidableEq, Repr

namespace Numeral

/-! ## Reading -/

/-- Reads an optional sign; the flag says whether it is a minus. -/
def takeSign : List Char → Bool × List Char
  | '+' :: rest => (false, rest)
  | '-' :: rest => (true, rest)
  | text => (false, text)

/-- The value of a digit sequence that is not empty. -/
def digits? (text : List Char) : Option Nat :=
  if text ≠ [] ∧ text.all Char.isDigit then some (Nat.ofDigitChars 10 text 0) else none

/-- The exponent at the end of a numeral, zero where there is none. -/
def exponent? : List Char → Option Int
  | [] => some 0
  | mark :: rest =>
    if mark = 'e' ∨ mark = 'E' then
      let (negative, text) := takeSign rest
      (digits? text).map fun n : Nat => if negative then -(n : Int) else n
    else none

/-- The digits before and after the point, and what follows them. -/
def takeDigits (text : List Char) : List Char × List Char × List Char :=
  let whole := text.takeWhile Char.isDigit
  match text.dropWhile Char.isDigit with
  | '.' :: rest => (whole, rest.takeWhile Char.isDigit, rest.dropWhile Char.isDigit)
  | rest => (whole, [], rest)

/-- Reads digits with an optional point and exponent. -/
def decimal? (negative : Bool) (text : List Char) : Option Numeral :=
  let (whole, fraction, rest) := takeDigits text
  if whole = [] ∧ fraction = [] then none
  else (exponent? rest).map fun exponent =>
    decimal negative (Nat.ofDigitChars 10 (whole ++ fraction) 0) (exponent - fraction.length)

/-- Reads a whole text as a numeral. -/
def parse? (text : List Char) : Option Numeral :=
  let (negative, rest) := takeSign text
  let word := rest.map Char.toLower
  if word = "inf".toList ∨ word = "infinity".toList then some (infinite negative)
  else if word = "nan".toList then some nan
  else decimal? negative rest

/-! ## Value -/

/-- The number nearest to `coefficient * 10 ^ exponent`. From `10 ^ 310` on it overflows; below
`10 ^ -400` nothing is left of it, so that no power of ten grows beyond the length of the numeral. -/
def nearest (negative : Bool) (coefficient : Nat) (exponent : Int) : Binary64 :=
  if coefficient = 0 then .zero negative
  else if 310 ≤ exponent then .infinite negative
  else if exponent + (coefficient.log2 + 400) ≤ 0 then .zero negative
  else .ofFraction negative (coefficient * 10 ^ exponent.toNat * unitsPerOne)
    (10 ^ (-exponent).toNat)

/-- The number that a numeral stands for; NaN has no sign. -/
def toBinary64 : Numeral → Binary64
  | nan => .nan
  | infinite negative => .infinite negative
  | decimal negative coefficient exponent => nearest negative coefficient exponent

end Numeral

/-- The number of a text that is a numeral. -/
def Binary64.ofText? (text : List Char) : Option Binary64 :=
  (Numeral.parse? text).map Numeral.toBinary64

end ColumnStats
