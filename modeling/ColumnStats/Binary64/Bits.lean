import ColumnStats.Binary64.Basic

/-!
# The interchange format

Numbers as words of 64 bits: a sign bit, 11 exponent bits and 52 significand bits. All words with
a full exponent field and a significand other than zero stand for the one NaN.
-/

namespace ColumnStats.Binary64

-- powers are those of the core library
attribute [local instance (2000)] instPowNat

/-- The width of the significand field. -/
def fractionBits : Nat := 52

/-- The width of the exponent field. -/
def exponentBits : Nat := 11

/-- The number that a word stands for. -/
def ofBits (word : UInt64) : Binary64 :=
  let negative := 2 ^ (exponentBits + fractionBits) ≤ word.toNat
  let exponent := word.toNat / 2 ^ fractionBits % 2 ^ exponentBits
  let significand := word.toNat % 2 ^ fractionBits
  if exponent = 2047 then (if significand = 0 then infinite negative else nan)
  else if exponent = 0 then ofFraction negative significand 1
  else ofFraction negative ((2 ^ fractionBits + significand) * 2 ^ (exponent - 1)) 1

/-- The 63 bits of a count: the exponent of its spacing, carried into by the leading bit. -/
def unitsBits (units : Nat) : Nat :=
  let e := ulpExponent units
  e * 2 ^ fractionBits + units / 2 ^ e

/-- The word of a number; NaN gets the quiet pattern without a sign. -/
def toBits (x : Binary64) : UInt64 :=
  let signBit (negative : Bool) : Nat := if negative then 2 ^ (exponentBits + fractionBits) else 0
  match x with
  | nan => UInt64.ofNat (2047 * 2 ^ fractionBits + 2 ^ (fractionBits - 1))
  | infinite negative => UInt64.ofNat (signBit negative + 2047 * 2 ^ fractionBits)
  | finite negative units _ => UInt64.ofNat (signBit negative + unitsBits units)

end ColumnStats.Binary64
