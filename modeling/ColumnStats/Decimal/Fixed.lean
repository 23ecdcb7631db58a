import ColumnStats.Binary64.Basic

/-!
# Numbers with fixed places

A finite number is written as its sign, the digits of its whole part, a point and a fixed number
of digits: the decimal nearest to its exact value, ties to even. There is no exponent, and the
sign stays where all digits are zero.

* `length_padded`, `isDigit_of_mem_padded`: the places are filled with digits.
-/

namespace ColumnStats

-- powers are those of the core library
attribute [local instance (2000)] instPowNat

namespace Decimal

/-- A minus for a sign bit, and nothing else. -/
def signText (negative : Bool) : List Char := if negative then ['-'] else []

/-- The digits of `n` with zeros before them up to a width. -/
def padded (width n : Nat) : List Char :=
  let digits := Nat.toDigits 10 n
  List.replicate (width - digits.length) '0' ++ digits

/-- The digits of `scaled / 10 ^ places`, with a point before the last `places` of them. -/
def pointed (places scaled : Nat) : List Char :=
  Nat.toDigits 10 (scaled / 10 ^ places) ++ '.' :: padded places (scaled % 10 ^ places)

theorem length_padded {width n : Nat} (positive : 0 < width) (h : n < 10 ^ width) :
    (padded width n).length = width := by
  have := (Nat.length_toDigits_le_iff (by omega) positive).2 h
  simp only [padded, List.length_append, List.length_replicate]
  omega

theorem isDigit_of_mem_padded {width n : Nat} {c : Char} (h : c ∈ padded width n) : c.isDigit := by
  rcases List.mem_append.1 h with h | h
  · rw [List.eq_of_mem_replicate h]
    rfl
  · exact Nat.isDigit_of_mem_toDigits (by omega) (by omega) h

end Decimal

open Decimal

/-- The text of a number with a fixed number of places; `nan`, `inf` and `-inf` have none. -/
def Binary64.fixed (places : Nat) : Binary64 → List Char
  | nan => "nan".toList
  | infinite negative => signText negative ++ "inf".toList
  | finite negative units _ =>
    signText negative ++ pointed places (nearestEven (units * 10 ^ places) unitsPerOne)

end ColumnStats
