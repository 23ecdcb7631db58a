import ColumnStats.Rounding

/-!
# Numbers of 64 bits

A finite number is a sign and a count of **units**, each `2 ^ -1074`: the smallest positive number
has one unit, and every finite number is a whole count of them. The counts that occur
(`Representable`) have at most 53 significant bits and stay below `overflowUnits`. There is one
NaN.

* `roundUnits num den`: the nearest count to `num / den` with 53 significant bits, ties to even;
* `Binary64.ofFraction`: the number nearest to a fraction of units, infinite on overflow;
* `ofFraction_units`: **a representable count is its own rounding**.
-/

namespace ColumnStats

-- powers are those of the core library
attribute [local instance (2000)] instPowNat

/-! ## Counts of units -/

/-- One, in units. -/
def unitsPerOne : Nat := 2 ^ (1074 : Nat)

/-- The first count that is too large: `2 ^ 1024`, in units. -/
def overflowUnits : Nat := 2 ^ (2098 : Nat)

theorem overflowUnits_pos : 0 < overflowUnits := by
  unfold overflowUnits
  generalize 2098 = exponent
  exact Nat.two_pow_pos exponent

/-- The exponent of the spacing of the numbers around `n` units: 53 bits are kept. -/
def ulpExponent (n : Nat) : Nat := n.log2 - 52

/-- Counts with at most 53 significant bits, below the overflow threshold. -/
def Representable (n : Nat) : Prop := 2 ^ ulpExponent n ∣ n ∧ n < overflowUnits

instance (n : Nat) : Decidable (Representable n) := inferInstanceAs (Decidable (_ ∧ _))

/-- The count of units nearest to `num / den` that has at most 53 significant bits. -/
def roundUnits (num den : Nat) : Nat :=
  let e := ulpExponent (num / den)
  nearestEven num (den * 2 ^ e) * 2 ^ e

theorem lt_two_pow_ulpExponent (n : Nat) : n < 2 ^ (53 : Nat) * 2 ^ ulpExponent n := by
  rw [← Nat.pow_add]
  refine Nat.lt_of_lt_of_le (Nat.lt_log2_self (n := n)) (Nat.pow_le_pow_right (by omega) ?_)
  simp only [ulpExponent]
  omega

theorem two_pow_ulpExponent_dvd {m e : Nat} (h : m ≤ 2 ^ (53 : Nat)) :
    2 ^ ulpExponent (m * 2 ^ e) ∣ m * 2 ^ e := by
  rcases Nat.eq_zero_or_pos m with rfl | hm
  · simp
  rcases Nat.eq_or_lt_of_le h with rfl | hlt
  · rw [← Nat.pow_add]
    refine Nat.pow_dvd_pow 2 ?_
    simp only [ulpExponent, Nat.log2_two_pow]
    omega
  · refine Nat.dvd_trans (Nat.pow_dvd_pow 2 ?_) (Nat.dvd_mul_left (2 ^ e) m)
    have hpos : m * 2 ^ e ≠ 0 := Nat.mul_ne_zero (by omega) (by simp)
    have : (m * 2 ^ e).log2 < 53 + e := by
      rw [Nat.log2_lt hpos, Nat.pow_add]
      exact (Nat.mul_lt_mul_right (Nat.two_pow_pos e)).2 hlt
    simp only [ulpExponent]
    omega

theorem two_pow_ulpExponent_dvd_roundUnits (num den : Nat) :
    2 ^ ulpExponent (roundUnits num den) ∣ roundUnits num den := by
  refine two_pow_ulpExponent_dvd (Nat.le_trans (nearestEven_le_div_succ _ _) ?_)
  rw [← Nat.div_div_eq_div_mul, Nat.succ_le_iff, Nat.div_lt_iff_lt_mul (Nat.two_pow_pos _)]
  exact lt_two_pow_ulpExponent _

theorem roundUnits_eq_self {n : Nat} (h : 2 ^ ulpExponent n ∣ n) : roundUnits n 1 = n := by
  obtain ⟨m, hm⟩ := h
  simp only [roundUnits, Nat.div_one, Nat.one_mul]
  generalize ulpExponent n = e at hm ⊢
  rw [hm, Nat.mul_comm (2 ^ e) m, nearestEven_mul_right m (Nat.two_pow_pos e)]

/-! ## The numbers -/

/-- A NaN, a signed infinity, or a sign and a representable count of units. -/
inductive Binary64 where
  | nan
  | infinite (negative : Bool)
  | finite (negative : Bool) (units : Nat) (representable : Representable units)
  deriving DecidableEq

namespace Binary64

theorem representable_zero : Representable 0 := ⟨Nat.dvd_zero _, overflowUnits_pos⟩

/-- The zero with this sign bit. -/
def zero (negative : Bool) : Binary64 := .finite negative 0 representable_zero

instance : Inhabited Binary64 := ⟨zero false⟩

/-- The number nearest to `num / den` units; an infinity where that overflows. -/
def ofFraction (negative : Bool) (num den : Nat) : Binary64 :=
  if h : roundUnits num den < overflowUnits then
    .finite negative (roundUnits num den) ⟨two_pow_ulpExponent_dvd_roundUnits num den, h⟩
  else .infinite negative

/-- The number nearest to a quotient of whole numbers. -/
def ofRatio (num den : Nat) : Binary64 := ofFraction false (num * unitsPerOne) den

/-- The number nearest to a whole number; itself up to `2 ^ 53`. -/
def ofNat (n : Nat) : Binary64 := ofRatio n 1

/-- The other sign bit, also for zeros and infinities. -/
def neg : Binary64 → Binary64
  | nan => nan
  | infinite negative => infinite !negative
  | finite negative units h => finite (!negative) units h

instance : Neg Binary64 := ⟨neg⟩

/-- Neither an infinity nor NaN. -/
def isFinite : Binary64 → Bool
  | finite _ _ _ => true
  | _ => false

theorem ofFraction_units (negative : Bool) {n : Nat} (h : Representable n) :
    ofFraction negative n 1 = finite negative n h := by
  simp [ofFraction, roundUnits_eq_self h.1, h.2]

/-! ## Order -/

/-- Signed units, the infinities just past the finite numbers; a NaN has none. -/
def rank? : Binary64 → Option Int
  | nan => none
  | infinite negative => some (if negative then -overflowUnits else overflowUnits)
  | finite negative units _ => some (if negative then -units else units)

/-- Ordered comparison; false as soon as a NaN takes part. -/
def lt (x y : Binary64) : Bool :=
  match x.rank?, y.rank? with
  | some a, some b => a < b
  | _, _ => false

/-- Numerical equality: the two zeros are equal, a NaN differs from itself. -/
def eqv (x y : Binary64) : Bool :=
  match x.rank?, y.rank? with
  | some a, some b => a = b
  | _, _ => false

end Binary64

end ColumnStats
