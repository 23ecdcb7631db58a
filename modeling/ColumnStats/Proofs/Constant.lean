import ColumnStats.Proofs.Printing
import ColumnStats.Proofs.Widths

/-!
# Constant columns

A column that holds one number only has no width, unless its mean is rounded away from the number.

* `fixed_eq_zero`: up to half a last place, a number is printed as zero;
* `IsClear`, `fixed_eq_of_isClear`: **numbers are printed alike if no boundary between two decimals is
  between them**; `isClear_of_near`: none is near a decimal;
* `near_of_small`: for small numbers and counts, the mean is near the number;
* `constant_column_is_shown`: **when copies of a number are summarized as that number, without a
  width**;
* `rounded_means_are_shown`: copies of which another mean is printed, or a width.
-/

namespace ColumnStats

open Binary64

variable {x m : Binary64} {k : Nat}

/-! ## Printing -/

theorem nearestEven_eq_zero {num den : Nat} (small : 2 * num ≤ den) : nearestEven num den = 0 := by
  rcases Nat.eq_zero_or_pos num with rfl | positive
  · exact nearestEven_zero_left den
  · have below : num < den := by omega
    simp only [nearestEven, Nat.div_eq_of_lt below, Nat.mod_eq_of_lt below]
    split
    · rfl
    · rw [if_neg (by omega)]

/-- **Up to half a last place, a number is printed as zero.** -/
theorem fixed_eq_zero {places : Nat} (unsigned : x.IsUnsigned) (finite : x.isFinite)
    (small : 2 * 10 ^ places * x.toRat ≤ 1) : x.fixed places = Decimal.pointed places 0 := by
  obtain ⟨m, hm, rfl⟩ := unsigned.exists_units finite
  have small : (2 * 10 ^ places * (m / unitsPerOne) : ℚ) ≤ 1 := small
  rw [← mul_div_assoc, div_le_one unitsPerOne_pos] at small
  have half : 2 * (m * 10 ^ places) ≤ unitsPerOne := by
    rw [Nat.mul_comm m, ← Nat.mul_assoc]
    exact_mod_cast small
  rw [fixed, nearestEven_eq_zero half]
  rfl

theorem exists_half_between {num num' den : Nat} (positive : 0 < den)
    (other : nearestEven num den ≠ nearestEven num' den) : ∃ j : Nat,
    |(num' / den : ℚ) - (j + 1 / 2)| ≤ |(num / den : ℚ) - num' / den| := by
  have half := abs_le.1 (abs_nearestEven_sub_le_half positive num)
  have half' := abs_le.1 (abs_nearestEven_sub_le_half positive num')
  rcases Nat.lt_or_gt_of_ne other with less | less
  · have apart : (nearestEven num den : ℚ) + 1 ≤ nearestEven num' den := by exact_mod_cast less
    refine ⟨nearestEven num den, ?_⟩
    rw [abs_of_nonneg (by linarith), abs_sub_comm, abs_of_nonneg (by linarith)]
    linarith
  · have apart : (nearestEven num' den : ℚ) + 1 ≤ nearestEven num den := by exact_mod_cast less
    refine ⟨nearestEven num' den, ?_⟩
    rw [abs_sub_comm, abs_of_nonneg (by linarith), abs_of_nonneg (by linarith)]
    linarith

/-- No rounding boundary between decimals is as near to the number as `bound`. -/
def IsClear (places : Nat) (bound : ℚ) (x : Binary64) : Prop :=
  ∀ k : ℤ, bound < |x.toRat - (2 * k + 1) / (2 * 10 ^ places)|

theorem isClear_of_near {places : Nat} {bound error : ℚ} {d : ℤ}
    (near : |x.toRat - d / 10 ^ places| ≤ error) (small : bound + error < 1 / (2 * 10 ^ places)) :
    IsClear places bound x := by
  intro k
  -- a decimal is an even number of half places, a boundary an odd one
  have apart : (1 : ℚ) ≤ |((2 * d - (2 * k + 1) : ℤ) : ℚ)| := by
    exact_mod_cast Int.one_le_abs (by omega)
  have scaled : (d / 10 ^ places - (2 * k + 1) / (2 * 10 ^ places) : ℚ) =
      ((2 * d - (2 * k + 1) : ℤ) : ℚ) / (2 * 10 ^ places) := by
    push_cast
    field_simp
  have far : 1 / (2 * 10 ^ places) ≤ |(d / 10 ^ places - (2 * k + 1) / (2 * 10 ^ places) : ℚ)| := by
    rw [scaled, abs_div, abs_of_pos (by positivity : (0 : ℚ) < 2 * 10 ^ places)]
    exact div_le_div_of_nonneg_right apart (by positivity)
  have triangle := abs_sub_le (d / 10 ^ places : ℚ) x.toRat ((2 * k + 1) / (2 * 10 ^ places))
  rw [abs_sub_comm _ x.toRat] at triangle
  linarith

theorem exists_boundary_between {places u v : Nat}
    (other : nearestEven (v * 10 ^ places) unitsPerOne ≠ nearestEven (u * 10 ^ places) unitsPerOne) :
    ∃ j : Nat, |(u / unitsPerOne : ℚ) - (2 * j + 1) / (2 * 10 ^ places)| ≤
      |(v / unitsPerOne : ℚ) - u / unitsPerOne| := by
  have ten : (0 : ℚ) < 10 ^ places := by positivity
  obtain ⟨j, boundary⟩ := exists_half_between (Nat.cast_pos.1 unitsPerOne_pos) other
  have scaled (n : Nat) : ((n * 10 ^ places : Nat) / unitsPerOne : ℚ) =
      n / unitsPerOne * 10 ^ places := by
    push_cast
    ring
  have scaled' (q : ℚ) : (q - (2 * j + 1) / (2 * 10 ^ places)) * 10 ^ places =
      q * 10 ^ places - (j + 1 / 2) := by
    field_simp
  refine ⟨j, ?_⟩
  rw [scaled, scaled, ← sub_mul, abs_mul, abs_of_pos ten] at boundary
  rw [← mul_le_mul_iff_left₀ ten]
  refine le_trans (le_of_eq ?_) boundary
  rw [← abs_of_pos ten, ← abs_mul, abs_of_pos ten, scaled']

/-- **Numbers with one sign are printed alike if no boundary is between them.** -/
theorem fixed_eq_of_isClear {places : Nat} {bound : ℚ} (finite : x.isFinite) (finite' : m.isFinite)
    (sign : m.isNegative = x.isNegative) (near : |m.toRat - x.toRat| ≤ bound)
    (clear : IsClear places bound x) : m.fixed places = x.fixed places := by
  obtain ⟨s, u, hu, rfl⟩ := exists_units_of_isFinite finite
  obtain ⟨t, v, hv, rfl⟩ := exists_units_of_isFinite finite'
  obtain rfl : t = s := sign
  rw [toRat, toRat, abs_withSign_sub] at near
  by_contra other
  obtain ⟨j, boundary⟩ := @exists_boundary_between places u v fun same =>
    other (by rw [fixed, fixed, same])
  have between := boundary.trans near
  -- the boundary with the sign of both numbers
  cases t with
  | false => exact absurd between (not_le.2 (clear j))
  | true =>
    have opposite : (2 * ((-(j : ℤ) - 1 : ℤ) : ℚ) + 1) / (2 * 10 ^ places) =
        -((2 * j + 1) / (2 * 10 ^ places)) := by
      push_cast
      ring
    have far := clear (-(j : ℤ) - 1)
    rw [opposite, toRat, withSign, if_pos rfl, ← neg_sub', abs_neg] at far
    exact absurd between (not_le.2 far)

/-! ## Main result -/

/-- The summary of copies of `c` prints the number itself, and no width. -/
structure ShowsConstant (c : Binary64) (summary : Summary) : Prop where
  mean : summary.mean.fixed Summary.places = c.fixed Summary.places
  halfWidth : summary.halfWidth.fixed Summary.places = "0.000000".toList

section Copies

variable (finite : x.isFinite) (positive : 1 ≤ k) (small : k + 1 ≤ 2 ^ (64 : Nat))
include finite positive small

/-- **No width is printed where the mean of copies is near.** -/
theorem fixed_halfWidth_replicate (finite' : m.isFinite)
    (near : (m.toRat - x.toRat) ^ 2 ≤ k / 2 ^ 46) :
    (deviation (Array.replicate (k + 1) x) m / (ofNat (k + 1)).sqrt * factor95).fixed
      Summary.places = "0.000000".toList := by
  obtain ⟨unsigned, isFinite, le⟩ := halfWidth_replicate_le finite finite' positive small near
  refine fixed_eq_zero unsigned isFinite ?_
  have half : 2 * (10 : ℚ) ^ Summary.places * (1 / 2 ^ 21) ≤ 1 := by norm_num [Summary.places]
  exact (mul_le_mul_of_nonneg_left le (by positivity)).trans half

theorem near_of_small (few : k * x.toRat ^ 2 ≤ 2 ^ 56) :
    (copies x k).isFinite ∧
      ((copies x k / ofNat (k + 1)).toRat - x.toRat) ^ 2 ≤ k / 2 ^ 46 := by
  have k_pos : (1 : ℚ) ≤ k := by exact_mod_cast positive
  have k_le : (k + 1 : ℚ) ≤ 2 ^ 64 := by exact_mod_cast small
  have square : x.toRat ^ 2 ≤ (2 ^ 28) ^ 2 := by
    have := mul_le_mul_of_nonneg_right k_pos (sq_nonneg x.toRat)
    linarith
  have magnitude : |x.toRat| ≤ 2 ^ 28 := abs_le_of_sq_le_sq square (by norm_num)
  have sum : (copies x k).isFinite := by
    have total := mul_le_mul k_le magnitude (abs_nonneg _) (by norm_num)
    rw [← pow_add] at total
    exact isFinite_copies finite total (by norm_num)
  obtain ⟨-, near⟩ := mean_copies_near small positive sum
  refine ⟨sum, ?_⟩
  calc ((copies x k / ofNat (k + 1)).toRat - x.toRat) ^ 2
      = |(copies x k / ofNat (k + 1)).toRat - x.toRat| ^ 2 := (sq_abs _).symm
    _ ≤ (k * |x.toRat| / 2 ^ 51) ^ 2 := pow_le_pow_left₀ (abs_nonneg _) near 2
    _ = k * (k * x.toRat ^ 2) / 2 ^ 102 := by rw [div_pow, mul_pow, sq_abs]; ring
    _ ≤ k * 2 ^ 56 / 2 ^ 102 := by
        refine div_le_div_of_nonneg_right (mul_le_mul_of_nonneg_left few (by linarith)) (by norm_num)
    _ = k / 2 ^ 46 := by ring

end Copies

/-- **Constant columns.** A mean that compares equal is shown as the number, without a width; of any
other mean, the error decides whether it is. -/
theorem constant_column_is_shown {c : Binary64} {n : Nat} (finite : c.isFinite) (enough : 2 ≤ n)
    (small : n < 2 ^ 64) (label : String) :
    ∃ summary, (Column.mk label (Array.replicate n c)).summary n factor95 = .ok summary ∧
      summary.label = label ∧
      (summary.mean.eqv c → summary.mean = c ∧ ShowsConstant c summary) ∧
      (n ≤ 2 ^ 53 → (∀ j ≤ n, ∃ y : Binary64, y.isFinite ∧ y.toRat = j * c.toRat) →
        summary.mean.eqv c) ∧
      (n * |c.toRat| ≤ 2 ^ 1022 → summary.mean.isFinite) ∧
      (summary.mean.isFinite →
        |summary.mean.toRat - c.toRat| ≤ (n - 1) * |c.toRat| / 2 ^ 51 ∧
        (IsClear Summary.places |summary.mean.toRat - c.toRat| c →
          summary.mean.fixed Summary.places = c.fixed Summary.places) ∧
        ((summary.mean.toRat - c.toRat) ^ 2 ≤ (n - 1) / 2 ^ 46 →
          summary.halfWidth.fixed Summary.places = "0.000000".toList)) ∧
      ((n - 1) * c.toRat ^ 2 ≤ 2 ^ 56 → summary.mean.isFinite ∧
        summary.halfWidth.fixed Summary.places = "0.000000".toList) := by
  obtain ⟨k, rfl⟩ : ∃ k, n = k + 1 := ⟨n - 1, by omega⟩
  have positive : 1 ≤ k := by omega
  have count : ((k + 1 : Nat) : ℚ) - 1 = k := by push_cast; ring
  have size : 2 ≤ (Column.mk label (Array.replicate (k + 1) c)).values.size := by
    rwa [Array.size_replicate]
  have zero_near : (c.toRat - c.toRat) ^ 2 ≤ (k : ℚ) / 2 ^ 46 := by
    rw [sub_self, zero_pow two_ne_zero]
    positivity
  have widthless {m : Binary64} (finite' : m.isFinite) :=
    @fixed_halfWidth_replicate c m k finite positive small.le finite'
  refine ⟨_, Column.summary_of_enough size (by omega) factor95, rfl, ?_⟩
  simp only [mean_replicate, count]
  refine ⟨fun equal => ?_, fun short multiples => ?_, fun far => ?_, fun isFinite => ?_, fun few => ?_⟩
  · have same := mean_copies_eq small.le finite equal
    rw [same]
    exact ⟨rfl, rfl, widthless finite zero_near⟩
  · exact mean_copies_eqv finite short multiples
  · push_cast at far
    exact (mean_copies_near small.le positive (isFinite_copies finite far le_rfl)).1
  · have sum := isFinite_of_mean small.le isFinite
    have sign : (copies c k / ofNat (k + 1)).isNegative = c.isNegative := by
      rw [isNegative_div_ofNat small.le sum, isNegative_copies sum]
    exact ⟨(mean_copies_near small.le positive sum).2,
      fixed_eq_of_isClear finite isFinite sign le_rfl, widthless isFinite⟩
  · obtain ⟨sum, near⟩ := near_of_small finite positive small.le few
    have isFinite := (mean_copies_near small.le positive sum).1
    exact ⟨isFinite, widthless isFinite near⟩

/-- The mean of three tenths is not a tenth, but it is printed as a tenth and without a width. -/
theorem three_tenths_are_shown :
    let c := Binary64.ofRatio 1 10
    let mean := mean (Array.replicate 3 c)
    c.isFinite ∧ 2 ≤ 3 ∧ 3 < 2 ^ 64 ∧ ((3 : Nat) - 1) * c.toRat ^ 2 ≤ 2 ^ 56 ∧
      ¬ mean.eqv c ∧ IsClear Summary.places |mean.toRat - c.toRat| c ∧
      ∃ summary, (Column.mk "c" (Array.replicate 3 c)).summary 3 factor95 = .ok summary ∧
        summary.mean = mean ∧ ShowsConstant c summary := by
  intro c mean
  have finite : c.isFinite := by decide +kernel
  have few : ((3 : Nat) - 1) * c.toRat ^ 2 ≤ 2 ^ 56 := by decide +kernel
  have other : ¬ mean.eqv c := by decide +kernel
  have near : |mean.toRat - c.toRat| ≤ 1 / 10 ^ 9 := by decide +kernel
  have tenth : |c.toRat - (100000 : ℤ) / 10 ^ Summary.places| ≤ 1 / 10 ^ 9 := by decide +kernel
  have clear : IsClear Summary.places |mean.toRat - c.toRat| c :=
    isClear_of_near tenth ((add_le_add_left near _).trans_lt (by norm_num [Summary.places]))
  obtain ⟨summary, e, -, -, -, -, shown, widthless⟩ :=
    constant_column_is_shown finite (by decide : 2 ≤ 3) (by decide) "c"
  have same : summary.mean = mean := by
    rw [Column.summary_of_enough (by decide) (by decide)] at e
    rw [← Except.ok.inj e]
  obtain ⟨isFinite, halfWidth⟩ := widthless few
  obtain ⟨-, alike, -⟩ := shown isFinite
  rw [same] at alike
  exact ⟨finite, by decide, by decide, few, other, clear, summary, e, same,
    same ▸ alike clear, halfWidth⟩

/-- What is printed of the mean and the half-width of copies. -/
def printedCopies (c : Binary64) (n : Nat) : Option (List Char × List Char) :=
  ((Column.mk "c" (Array.replicate n c)).summary n factor95).toOption.map fun summary =>
    (summary.mean.fixed Summary.places, summary.halfWidth.fixed Summary.places)

/-- **Other means and widths are printed where the sum is rounded**: the mean is on the other side of
a boundary, there is a width, or the sum overflows. -/
theorem rounded_means_are_shown :
    (Binary64.ofRatio 1657 2000000).fixed Summary.places = "0.000829".toList ∧
      printedCopies (.ofRatio 1657 2000000) 3 = some ("0.000828".toList, "0.000000".toList) ∧
      (ofNat 6004799503160662).fixed Summary.places = "6004799503160662.000000".toList ∧
      printedCopies (.ofNat 6004799503160662) 3 =
        some ("6004799503160661.000000".toList, "1.385929".toList) ∧
      (ofNat (2 ^ 1023)).isFinite ∧
      printedCopies (.ofNat (2 ^ 1023)) 2 = some ("inf".toList, "inf".toList) := by
  decide +kernel

end ColumnStats
