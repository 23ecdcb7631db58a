import ColumnStats.Proofs.Copies
import ColumnStats.Proofs.Monotone

/-!
# Half-widths of equal values

If the mean of copies is near the number, each step from the deviation to the half-width keeps it
small: the difference, the square, the sum of squares, the variance, both roots, the standard error
and the factor. Each adds an error of its own, for which the bounds leave room.

* `sub_mul_self_le`, `squaredDeviation_le`: one difference and its square;
* `variance_lt`: **the variance is far below the count**;
* `sqrt_div_sqrt_le`: so that the quotient of the roots is small;
* `halfWidth_replicate_le`: **the half-width of copies is small if their mean is near**.
-/

namespace ColumnStats

open Binary64

variable {x m : Binary64} {k : Nat}

/-! ## Variances -/

/-- The squared deviation of each copy from a mean. -/
def squaredDeviation (x m : Binary64) : Binary64 := (x - m) * (x - m)

theorem deviation_replicate (x m : Binary64) (k : Nat) :
    deviation (Array.replicate (k + 1) x) m =
      (copies (squaredDeviation x m) k / (ofNat (k + 1) - ofNat 1)).sqrt := by
  rw [deviation, Array.map_replicate, sum_replicate, Array.size_replicate]
  rfl

theorem sub_mul_self_le (finite : x.isFinite) (finite' : m.isFinite) {bound : ℚ}
    (below : bound ≤ 2 ^ 20) (near : (m.toRat - x.toRat) ^ 2 ≤ bound) :
    (x - m).isFinite ∧ (x - m).toRat * (x - m).toRat ≤ 17 / 16 * bound := by
  have near : (x.toRat - m.toRat) ^ 2 ≤ bound := by rwa [← sq_abs, abs_sub_comm, sq_abs]
  have size : |x.toRat - m.toRat| ≤ 2 ^ 10 := by
    refine abs_le_of_sq_le_sq (near.trans (below.trans ?_)) (by norm_num)
    norm_num
  have isFinite : (x - m).isFinite :=
    (isNearestTo_sub finite finite').isFinite_of_le size (by norm_num)
  have magnitude : |(x - m).toRat| ≤ 65 / 64 * |x.toRat - m.toRat| := by
    have error := abs_toRat_sub_sub_le isFinite finite'
    have triangle := abs_sub_abs_le_abs_sub (x - m).toRat (x.toRat - m.toRat)
    have relative := mul_le_mul_of_nonneg_right unitRoundoff_le (abs_nonneg (x.toRat - m.toRat))
    linarith
  refine ⟨isFinite, ?_⟩
  calc (x - m).toRat * (x - m).toRat
      = |(x - m).toRat| ^ 2 := by rw [sq_abs, pow_two]
    _ ≤ (65 / 64 * |x.toRat - m.toRat|) ^ 2 := pow_le_pow_left₀ (abs_nonneg _) magnitude 2
    _ = (65 / 64) ^ 2 * (x.toRat - m.toRat) ^ 2 := by rw [mul_pow, sq_abs]
    _ ≤ 17 / 16 * bound := mul_le_mul (by norm_num) near (sq_nonneg _) (by norm_num)

theorem squaredDeviation_le (finite : x.isFinite) (finite' : m.isFinite) {bound : ℚ}
    (above : 1 / 2 ^ 46 ≤ bound) (below : bound ≤ 2 ^ 20)
    (near : (m.toRat - x.toRat) ^ 2 ≤ bound) :
    (squaredDeviation x m).isFinite ∧ |(squaredDeviation x m).toRat| ≤ 9 / 8 * bound := by
  obtain ⟨difference, square⟩ := sub_mul_self_le finite finite' below near
  have product : IsNearestTo _ (squaredDeviation x m) := isNearestTo_mul difference difference
  have nonneg := mul_self_nonneg (x - m).toRat
  have isFinite : (squaredDeviation x m).isFinite := by
    refine product.isFinite_of_le (e := 21) ?_ (by norm_num)
    rw [abs_of_nonneg nonneg]
    linarith
  have rounded := product.abs_toRat_le isFinite
  have tiny : (1 / 2 ^ 60 : ℚ) ≤ 1 / 64 * (1 / 2 ^ 46) := by norm_num
  rw [abs_of_nonneg nonneg] at rounded
  exact ⟨isFinite, by linarith⟩

section Variance

variable (positive : 1 ≤ k) (small : k + 1 ≤ 2 ^ (64 : Nat))
include positive small

theorem le_toRat_ofNat_sub_one : (ofNat (k + 1) - ofNat 1).IsPositive ∧
    7 / 8 * k ≤ (ofNat (k + 1) - ofNat 1).toRat := by
  have count := @isBetween_ofNat 2 (k + 1) (by decide) (by omega) small
  have isPositive := count.sub_ofNat_one.isPositive Nat.one_pos
  have one := @isInteger_ofNat 1 (by decide)
  have error := abs_toRat_sub_sub_le isPositive.isFinite one.isFinite
  have lower := le_toRat_ofNat small
  have k_pos : (1 : ℚ) ≤ k := by exact_mod_cast positive
  refine ⟨isPositive, ?_⟩
  rw [one.toRat_eq] at error
  push_cast at error
  have less : 0 ≤ (ofNat (k + 1)).toRat - 1 := by linarith
  have relative := mul_le_mul_of_nonneg_right unitRoundoff_le less
  rw [abs_of_nonneg less] at error
  linarith [(abs_le.1 error).1]

/-- **The variance of copies is far below their count**, if each deviation is small. -/
theorem variance_lt {square : Binary64} (finite : square.isFinite)
    (near : |square.toRat| ≤ 9 / 8 * (k / 2 ^ 46)) :
    (copies square k / (ofNat (k + 1) - ofNat 1)).isFinite ∧
      2 ^ 44 * |(copies square k / (ofNat (k + 1) - ofNat 1)).toRat| < (ofNat (k + 1)).toRat := by
  obtain ⟨divisor, divisor_ge⟩ := le_toRat_ofNat_sub_one positive small
  have count := le_toRat_ofNat small
  have k_pos : (1 : ℚ) ≤ k := by exact_mod_cast positive
  have k_le : (k + 1 : ℚ) ≤ 2 ^ 64 := by exact_mod_cast small
  have sum : (copies square k).isFinite := by
    have size : |square.toRat| ≤ 2 ^ 20 := near.trans (by linarith)
    have total := mul_le_mul k_le size (abs_nonneg _) (by norm_num)
    rw [← pow_add] at total
    exact isFinite_copies finite total (by norm_num)
  have total := abs_copies_le sum
  have rounded := isNearestTo_div sum divisor.isFinite divisor.pos.ne'
  generalize (ofNat (k + 1) - ofNat 1) = less at *
  have quotient : |(copies square k).toRat / less.toRat| ≤ 18 / 7 * ((k + 1) / 2 ^ 46) := by
    rw [abs_div, abs_of_pos divisor.pos, div_le_iff₀ divisor.pos]
    calc |(copies square k).toRat|
        ≤ 2 * (k + 1) * |square.toRat| := total
      _ ≤ 2 * (k + 1) * (9 / 8 * (k / 2 ^ 46)) := mul_le_mul_of_nonneg_left near (by positivity)
      _ = 18 / 7 * ((k + 1) / 2 ^ 46) * (7 / 8 * k) := by ring
      _ ≤ 18 / 7 * ((k + 1) / 2 ^ 46) * less.toRat :=
          mul_le_mul_of_nonneg_left divisor_ge (by positivity)
  have isFinite := rounded.isFinite_of_le (e := 20) (quotient.trans (by linarith)) (by norm_num)
  have near_quotient := rounded.abs_toRat_le isFinite
  exact ⟨isFinite, by linarith⟩

theorem isUnsigned_variance (number : x - m ≠ nan) :
    (copies (squaredDeviation x m) k / (ofNat (k + 1) - ofNat 1)).IsUnsigned := by
  have squares : (copies (squaredDeviation x m) k).IsUnsigned := by
    rw [← sum_replicate]
    refine isUnsigned_sum (by simp) fun y mem => ?_
    rw [(Array.mem_replicate.1 mem).2]
    exact isUnsigned_mul_self number
  exact squares.div (le_toRat_ofNat_sub_one positive small).1

end Variance

/-! ## Roots -/

theorem sqrt_div_sqrt_le {variance count : Binary64} (unsigned : variance.IsUnsigned)
    (finite : variance.isFinite) (isCount : IsBetween 1 (2 ^ (64 : Nat)) count)
    (less : 2 ^ 44 * variance.toRat < count.toRat) :
    (variance.sqrt / count.sqrt).isFinite ∧ 0 ≤ (variance.sqrt / count.sqrt).toRat ∧
      (variance.sqrt / count.sqrt).toRat ≤ 1 / 2 ^ 22 := by
  have root := isCount.sqrt.toRat_bounds.1
  have below := isCount.toRat_bounds.2
  have divisor := isCount.sqrt.isPositive Nat.one_pos
  push_cast at root below
  obtain ⟨v, hv, rfl⟩ := unsigned.exists_units finite
  obtain ⟨n, hn, rfl, -⟩ := isCount
  have proportion := (isRoundedRoot_sqrt hv).two_pow_mul_le (isRoundedRoot_sqrt hn) (k := 22)
    (by norm_num) unsigned.toRat_nonneg (below.trans (by norm_num)) root less
  obtain ⟨_, _, e, -⟩ := isRoundedRoot_sqrt hv
  have dividend : (Binary64.finite false v hv).sqrt.isFinite := by rw [e]; rfl
  have bound : (ofRatio 1 (2 ^ (22 : Nat))).isFinite ∧
      (ofRatio 1 (2 ^ (22 : Nat))).toRat = 1 / 2 ^ 22 := by decide +kernel
  have rounded := isNearestTo_div dividend divisor.isFinite divisor.pos.ne'
  rw [← bound.2]
  refine rounded.between_zero bound.1 ?_ ?_
  · exact div_nonneg unsigned.sqrt.toRat_nonneg divisor.pos.le
  · rw [bound.2, div_le_div_iff₀ divisor.pos (by norm_num), one_mul, mul_comm]
    exact proportion

/-- **The half-width of copies is small if their mean is near.** -/
theorem halfWidth_replicate_le (finite : x.isFinite) (finite' : m.isFinite) (positive : 1 ≤ k)
    (small : k + 1 ≤ 2 ^ (64 : Nat)) (near : (m.toRat - x.toRat) ^ 2 ≤ k / 2 ^ 46) :
    let halfWidth := deviation (Array.replicate (k + 1) x) m / (ofNat (k + 1)).sqrt * factor95
    halfWidth.IsUnsigned ∧ halfWidth.isFinite ∧ halfWidth.toRat ≤ 1 / 2 ^ 21 := by
  intro halfWidth
  have k_pos : (1 : ℚ) ≤ k := by exact_mod_cast positive
  have k_le : (k + 1 : ℚ) ≤ 2 ^ 64 := by exact_mod_cast small
  have isCount := isBetween_ofNat_succ small
  have factor : factor95.IsPositive := ⟨by decide +kernel, by decide +kernel⟩
  have factor_le : factor95.toRat ≤ 2 := by decide +kernel
  obtain ⟨square, deviates⟩ := squaredDeviation_le finite finite'
    (div_le_div_of_nonneg_right k_pos (by norm_num)) (by linarith) near
  obtain ⟨isFinite, less⟩ := variance_lt positive small square deviates
  have unsigned := @isUnsigned_variance x m k positive small
    (sub_ne_nan finite (ne_nan_of_isFinite finite'))
  rw [abs_of_nonneg unsigned.toRat_nonneg] at less
  obtain ⟨stdError, nonneg, le⟩ := sqrt_div_sqrt_le unsigned isFinite isCount less
  have root := isCount.sqrt.isPositive Nat.one_pos
  have width := unsigned.sqrt.div root
  rw [← deviation_replicate] at stdError nonneg le width
  have bound : (ofRatio 1 (2 ^ (21 : Nat))).isFinite ∧
      (ofRatio 1 (2 ^ (21 : Nat))).toRat = 1 / 2 ^ 21 := by decide +kernel
  have rounded := isNearestTo_mul stdError factor.isFinite
  have bounds := rounded.between_zero bound.1 (mul_nonneg nonneg factor.pos.le) (by
    rw [bound.2]
    exact (mul_le_mul le factor_le factor.pos.le (by norm_num)).trans (by norm_num))
  rw [bound.2] at bounds
  exact ⟨width.mul factor, bounds.1, bounds.2.2⟩

end ColumnStats
