import ColumnStats.Proofs.Nearest

/-!
# Bounds of rounding

* `IsNearestCount.mono`: **rounding is monotone**; `roundUnits_le`, `le_roundUnits`: a count that
  bounds a fraction of units bounds its rounding;
* `exists_ofFraction_eq`: a fraction between two counts is rounded to a finite number;
* `abs_roundUnits_sub_le_half`: **rounding goes no farther than half a spacing**;
  `abs_roundUnits_sub_le`, `abs_roundUnits_one_sub_le`: this relative to what is rounded. Whole
  numbers of units have no error below the first spacing.
-/

namespace ColumnStats

-- powers are those of the core library
attribute [local instance (2000)] instPowNat

/-! ## Order -/

/-- **Rounding is monotone.** -/
theorem IsNearestCount.mono {quotient quotient' : ℚ} {units units' : Nat}
    (h : IsNearestCount quotient units) (h' : IsNearestCount quotient' units')
    (le : quotient ≤ quotient') : units ≤ units' := by
  rcases lt_or_eq_of_le le with less | rfl
  · have near := h.nearest.abs_sub_le h'.fits
    have near' := h'.nearest.abs_sub_le h.fits
    exact Nat.cast_le.1 (le_of_abs_sub_le near near' less)
  · exact (h.unique h').le

theorem isNearestCount_self {n : Nat} (fits : 2 ^ ulpExponent n ∣ n) : IsNearestCount n n := by
  have rounded := isNearestCount_roundUnits Nat.one_pos n
  rwa [roundUnits_eq_self fits, Nat.cast_one, div_one] at rounded

section Fractions

variable {num den n : Nat}

theorem roundUnits_le (positive : 0 < den) (fits : 2 ^ ulpExponent n ∣ n) (le : num ≤ n * den) :
    roundUnits num den ≤ n := by
  refine (isNearestCount_roundUnits positive num).mono (isNearestCount_self fits) ?_
  rw [div_le_iff₀ (by exact_mod_cast positive)]
  exact_mod_cast le

theorem le_roundUnits (positive : 0 < den) (fits : 2 ^ ulpExponent n ∣ n) (le : n * den ≤ num) :
    n ≤ roundUnits num den := by
  refine (isNearestCount_self fits).mono (isNearestCount_roundUnits positive num) ?_
  rw [le_div_iff₀ (by exact_mod_cast positive)]
  exact_mod_cast le

theorem exists_ofFraction_eq {low high : Nat} (positive : 0 < den)
    (fits : 2 ^ ulpExponent low ∣ low) (above : low * den ≤ num) (last : Representable high)
    (below : num ≤ high * den) (negative : Bool) : ∃ units representable,
      Binary64.ofFraction negative num den = .finite negative units representable ∧
      low ≤ units ∧ units ≤ high := by
  have upper := roundUnits_le positive last.1 below
  obtain ⟨representable, e⟩ := ofFraction_of_lt (upper.trans_lt last.2) negative
  exact ⟨_, representable, e, le_roundUnits positive fits above, upper⟩

/-! ## Distance -/

theorem abs_mul_two_pow_sub (k e num den : Nat) : |((k * 2 ^ e : Nat) : ℚ) - num / den| =
    |(k : ℚ) - num / (den * 2 ^ e : Nat)| * 2 ^ e := by
  have unit : (0 : ℚ) < 2 ^ e := by positivity
  rw [← abs_of_pos unit, ← abs_mul]
  congr 1
  push_cast
  field_simp

/-- **Rounding goes no farther than half a spacing.** -/
theorem abs_roundUnits_sub_le_half (positive : 0 < den) (num : Nat) :
    |(roundUnits num den : ℚ) - num / den| ≤ 2 ^ ulpExponent (num / den) / 2 := by
  rw [roundUnits, abs_mul_two_pow_sub]
  generalize ulpExponent (num / den) = e
  have positive' : 0 < den * 2 ^ e := Nat.mul_pos positive (Nat.two_pow_pos e)
  have half := abs_nearestEven_sub_le_half positive' num
  have unit : (0 : ℚ) < 2 ^ e := by positivity
  linarith [mul_le_mul_of_nonneg_right half unit.le]

theorem half_spacing_le (positive : 0 < den) (large : ulpExponent (num / den) ≠ 0) :
    (2 ^ ulpExponent (num / den) / 2 : ℚ) ≤ num / den / 2 ^ 53 := by
  have full := (ulpExponent_eq_zero_or (num / den)).resolve_left large
  generalize ulpExponent (num / den) = e at full ⊢
  have full : ((2 ^ (52 : Nat) * 2 ^ e : Nat) : ℚ) ≤ num / den := by
    rw [le_div_iff₀ (by exact_mod_cast positive)]
    exact_mod_cast (Nat.le_div_iff_mul_le positive).1 full
  push_cast at full
  rw [le_div_iff₀ (by norm_num)]
  linarith

theorem abs_roundUnits_sub_le (positive : 0 < den) (num : Nat) :
    |(roundUnits num den : ℚ) - num / den| ≤ num / den / 2 ^ 53 + 1 / 2 := by
  have near := abs_roundUnits_sub_le_half positive num
  have nonneg : (0 : ℚ) ≤ num / den / 2 ^ 53 := by positivity
  by_cases small : ulpExponent (num / den) = 0
  · rw [small, pow_zero] at near
    linarith
  · have := half_spacing_le positive small
    linarith

theorem abs_roundUnits_one_sub_le (num : Nat) :
    |(roundUnits num 1 : ℚ) - num| ≤ num / 2 ^ 53 := by
  by_cases small : ulpExponent num = 0
  · rw [roundUnits_eq_self (by rw [small]; exact Nat.one_dvd _), sub_self, abs_zero]
    positivity
  · have near := abs_roundUnits_sub_le_half Nat.one_pos num
    have spacing := @half_spacing_le num 1 Nat.one_pos (by rwa [Nat.div_one])
    rw [Nat.cast_one, div_one] at near spacing
    exact near.trans spacing

end Fractions

end ColumnStats
