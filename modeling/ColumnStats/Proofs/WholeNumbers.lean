import ColumnStats.Proofs.Exactness
import ColumnStats.Proofs.NonFinite
import ColumnStats.Proofs.Roots

/-!
# Series of whole numbers

Sums, differences and squares of whole numbers are exact as long as they have no more than 53 bits,
so that a mean is rounded once, and a deviation twice.

* `IsIntegral`: series of whole numbers; `IsIntegral.isNearestTo_mean`: **their means are rounded
  once**;
* `IsCentered`: those around a whole number; `IsCentered.exists_isInteger_square`,
  `IsCentered.exists_isInteger_squares`: **their squared distances are exact, and so is the sum of
  these**;
* `IsCentered.isRounded_variance`, `IsCentered.isRoundedRoot_deviation`: the quotient and its root are
  rounded once each;
* `IsCentered.deviation_eq_zero`, `IsCentered.deviation_ne_zero`: a deviation vanishes only where
  there are no distances;
* `whole_numbers_are_exact`: **means and deviations of such series, in any order**.
-/

namespace ColumnStats

open Binary64

variable {series series' : Array Binary64}

/-! ## Series -/

/-- A series of whole numbers that have no more than 53 bits together. -/
structure IsIntegral (series : Array Binary64) : Prop where
  nonempty : 1 ≤ series.size
  short : series.size ≤ 2 ^ 53
  whole : ∀ x ∈ series, ∃ a : ℤ, IsInteger a x
  bounded : magnitudeSum series.toList ≤ 2 ^ 53

theorem whole_of_counts {counts : List Nat} (short : ∀ n ∈ counts, n ≤ 2 ^ 53) :
    ∀ x ∈ (counts.map Binary64.ofNat).toArray, ∃ a : ℤ, IsInteger a x := by
  intro x mem
  obtain ⟨n, hn, rfl⟩ := List.mem_map.1 (by simpa using mem)
  exact ⟨n, isInteger_ofNat (short n hn)⟩

/-- The sum of the squared distances from the mean, exactly. -/
def spread (series : Array Binary64) : ℚ :=
  (series.toList.map fun x => (x.toRat - exactSum series.toList / series.size) ^ 2).sum

theorem sq_le_spread {x : Binary64} (mem : x ∈ series) :
    (x.toRat - exactSum series.toList / series.size) ^ 2 ≤ spread series := by
  refine List.single_le_sum (fun square mem => ?_) _ (List.mem_map_of_mem (by simpa using mem))
  obtain ⟨y, -, rfl⟩ := List.mem_map.1 mem
  exact sq_nonneg _

theorem spread_pos {x y : Binary64} (hx : x ∈ series) (hy : y ∈ series)
    (other : x.toRat ≠ y.toRat) : 0 < spread series := by
  by_contra none
  have distance {z : Binary64} (mem : z ∈ series) :
      z.toRat = exactSum series.toList / series.size := by
    have := (sq_le_spread mem).trans (not_lt.1 none)
    exact sub_eq_zero.1 (pow_eq_zero_iff two_ne_zero |>.1 (le_antisymm this (sq_nonneg _)))
  exact other ((distance hx).trans (distance hy).symm)

/-- A series of whole numbers around a whole number, with squared distances that have no more than 53
bits together. -/
structure IsCentered (series : Array Binary64) : Prop extends IsIntegral series where
  enough : 2 ≤ series.size
  divides : ∃ center : ℤ, exactSum series.toList = center * series.size
  close : spread series ≤ 2 ^ 53

section Permutations

variable (perm : series'.toList.Perm series.toList)

include perm

theorem size_of_perm : series'.size = series.size := by simpa using perm.length_eq

theorem exactSum_of_perm : exactSum series'.toList = exactSum series.toList :=
  (perm.map _).sum_eq

theorem spread_of_perm : spread series' = spread series := by
  unfold spread
  rw [exactSum_of_perm perm, size_of_perm perm]
  exact (perm.map _).sum_eq

theorem IsIntegral.of_perm (h : IsIntegral series) : IsIntegral series' := by
  have size := size_of_perm perm
  refine ⟨size ▸ h.nonempty, size ▸ h.short, fun x hx => h.whole x ?_, ?_⟩
  · simpa using perm.mem_iff.1 (by simpa using hx)
  · exact (perm.map _).sum_eq.trans_le h.bounded

theorem IsCentered.of_perm (h : IsCentered series) : IsCentered series' where
  toIsIntegral := h.toIsIntegral.of_perm perm
  enough := size_of_perm perm ▸ h.enough
  divides := by
    rw [exactSum_of_perm perm, size_of_perm perm]
    exact h.divides
  close := spread_of_perm perm ▸ h.close

end Permutations

/-! ## Means -/

theorem IsIntegral.size_ne_zero (h : IsIntegral series) : (series.size : ℚ) ≠ 0 :=
  Nat.cast_ne_zero.2 (Nat.one_le_iff_ne_zero.1 h.nonempty)

theorem IsIntegral.isInteger_size (h : IsIntegral series) :
    IsInteger series.size (.ofNat series.size) := isInteger_ofNat h.short

theorem IsIntegral.toRat_size_ne_zero (h : IsIntegral series) :
    (Binary64.ofNat series.size).toRat ≠ 0 := by
  rw [h.isInteger_size.toRat_eq]
  exact_mod_cast h.size_ne_zero

/-- **The mean is rounded once.** -/
theorem IsIntegral.isNearestTo_mean (h : IsIntegral series) :
    IsNearestTo (exactSum series.toList / series.size) (mean series) := by
  obtain ⟨total, summed, e⟩ := exists_isInteger_sum h.whole h.bounded
  have rounded := isNearestTo_div summed.isFinite h.isInteger_size.isFinite h.toRat_size_ne_zero
  rwa [summed.toRat_eq, e, h.isInteger_size.toRat_eq, Int.cast_natCast] at rounded

/-- **The order does not matter** for the mean of whole numbers. -/
theorem IsIntegral.mean_eqv_of_perm (h : IsIntegral series)
    (perm : series'.toList.Perm series.toList) : (mean series').eqv (mean series) := by
  have h' := h.of_perm perm
  obtain ⟨total, summed, e⟩ := exists_isInteger_sum h.whole h.bounded
  obtain ⟨total', summed', e'⟩ := exists_isInteger_sum h'.whole h'.bounded
  have same : (sum series').toRat = (sum series).toRat := by
    rw [summed'.toRat_eq, summed.toRat_eq, e, e', exactSum_of_perm perm]
  have finite := (toRat_div_ofNat summed.isFinite h.nonempty h.short).1
  have finite' := (toRat_div_ofNat summed'.isFinite h.nonempty h.short).1
  unfold mean
  rw [size_of_perm perm]
  apply eqv_of_toRat_eq finite' finite
  exact toRat_div_congr summed'.isFinite summed.isFinite same h.isInteger_size.isFinite
    h.toRat_size_ne_zero

/-! ## Squares -/

/-- The squares whose sum a deviation is computed from. -/
def squares (series : Array Binary64) : Array Binary64 :=
  series.map fun x => (x - mean series) * (x - mean series)

theorem IsCentered.exists_center (h : IsCentered series) : ∃ center : ℤ,
    IsInteger center (mean series) ∧ exactSum series.toList / series.size = center := by
  obtain ⟨center, divides⟩ := h.divides
  have exact_mean : exactSum series.toList / series.size = center := by
    rw [divides, mul_div_cancel_right₀ _ h.size_ne_zero]
  have small : |(center : ℚ)| ≤ 2 ^ 53 := by
    have total := (abs_exactSum_le series.toList).trans h.bounded
    rw [divides, abs_mul, Nat.abs_cast] at total
    refine le_trans (le_mul_of_one_le_right (abs_nonneg _) ?_) total
    exact_mod_cast h.nonempty
  have rounded := h.isNearestTo_mean
  rw [exact_mean] at rounded
  exact ⟨center, rounded.isInteger (by exact_mod_cast small), exact_mean⟩

/-- **The squares are exact.** None of them is greater than their sum. -/
theorem IsCentered.exists_isInteger_square (h : IsCentered series) {x : Binary64} (mem : x ∈ series) :
    ∃ b : ℤ, IsInteger b ((x - mean series) * (x - mean series)) ∧
      b = (x.toRat - exactSum series.toList / series.size) ^ 2 := by
  obtain ⟨center, mean, exact_mean⟩ := h.exists_center
  obtain ⟨a, value⟩ := h.whole x mem
  have square : ((a - center : ℤ) : ℚ) ^ 2 = (x.toRat - exactSum series.toList / series.size) ^ 2 := by
    rw [value.toRat_eq, exact_mean, Int.cast_sub]
  have small : (a - center) ^ 2 ≤ 2 ^ 53 := by
    have part := (sq_le_spread mem).trans h.close
    rw [← square] at part
    exact_mod_cast part
  have distance : |a - center| ≤ 2 ^ 53 := by
    refine le_trans ?_ small
    rw [← sq_abs]
    exact Int.le_self_sq _
  refine ⟨(a - center) * (a - center), ?_, ?_⟩
  · have exact_distance := value.sub mean distance
    refine exact_distance.mul exact_distance ?_
    rwa [← pow_two, abs_of_nonneg (sq_nonneg _)]
  · rw [← square, pow_two, Int.cast_mul]

theorem IsCentered.map_toRat_squares (h : IsCentered series) : (squares series).toList.map toRat =
    series.toList.map fun x => (x.toRat - exactSum series.toList / series.size) ^ 2 := by
  rw [squares, Array.toList_map, List.map_map]
  refine List.map_congr_left fun x mem => ?_
  obtain ⟨b, square, e⟩ := h.exists_isInteger_square (by simpa using mem)
  exact square.toRat_eq.trans e

theorem IsCentered.magnitudeSum_squares (h : IsCentered series) :
    magnitudeSum (squares series).toList = spread series := by
  have magnitudes : (squares series).toList.map (fun x => |x.toRat|) =
      ((squares series).toList.map toRat).map abs := by rw [List.map_map]; rfl
  rw [magnitudeSum, magnitudes, h.map_toRat_squares, List.map_map, spread]
  refine congrArg List.sum (List.map_congr_left fun x _ => ?_)
  exact abs_of_nonneg (sq_nonneg _)

theorem IsCentered.isUnsigned_sum_squares (h : IsCentered series) :
    (sum (squares series)).IsUnsigned := by
  obtain ⟨center, mean, -⟩ := h.exists_center
  refine isUnsigned_sum (by simpa [squares] using h.nonempty) fun square mem => ?_
  obtain ⟨x, hx, rfl⟩ := Array.mem_map.1 mem
  obtain ⟨a, value⟩ := h.whole x hx
  refine isUnsigned_mul_self (sub_ne_nan value.isFinite fun undefined => ?_)
  have finite := mean.isFinite
  rw [undefined] at finite
  cases finite

theorem IsCentered.exists_isInteger_squares (h : IsCentered series) :
    ∃ total : ℤ, IsInteger total (sum (squares series)) ∧ total = spread series := by
  have whole : ∀ y ∈ squares series, ∃ b : ℤ, IsInteger b y := by
    intro y mem
    obtain ⟨x, hx, rfl⟩ := Array.mem_map.1 mem
    obtain ⟨b, square, -⟩ := h.exists_isInteger_square hx
    exact ⟨b, square⟩
  obtain ⟨total, summed, e⟩ := exists_isInteger_sum whole (h.magnitudeSum_squares ▸ h.close)
  refine ⟨total, summed, ?_⟩
  rw [e, exactSum, h.map_toRat_squares, spread]

/-! ## Deviations -/

/-- The quotient whose root a deviation is. -/
def variance (series : Array Binary64) : Binary64 :=
  sum (squares series) / (.ofNat series.size - .ofNat 1)

theorem deviation_eq_sqrt (series : Array Binary64) :
    deviation series (mean series) = (variance series).sqrt := rfl

namespace IsCentered

theorem variance_eq (h : IsCentered series) :
    variance series = sum (squares series) / .ofNat (series.size - 1) := by
  rw [variance, ofNat_sub_one h.enough h.short]

theorem isInteger_sub_one (h : IsCentered series) :
    IsInteger (series.size - 1 : Nat) (.ofNat (series.size - 1)) :=
  isInteger_ofNat ((Nat.sub_le _ _).trans h.short)

theorem isPositive_sub_one (h : IsCentered series) :
    (Binary64.ofNat (series.size - 1)).IsPositive := by
  have enough := h.enough
  refine ⟨h.isInteger_sub_one.isFinite, ?_⟩
  rw [h.isInteger_sub_one.toRat_eq]
  exact_mod_cast (by omega : 0 < series.size - 1)

theorem exists_variance (h : IsCentered series) :
    ∃ units representable, variance series = .finite false units representable := by
  have enough := h.enough
  have short := h.short
  obtain ⟨total, summed, -⟩ := h.exists_isInteger_squares
  rw [h.variance_eq]
  apply (h.isUnsigned_sum_squares.div h.isPositive_sub_one).exists_units
  exact (toRat_div_ofNat summed.isFinite (by omega) (by omega)).1

theorem isRounded_variance (h : IsCentered series) :
    IsRounded false (spread series / (series.size - 1)) (variance series) := by
  have enough := h.enough
  obtain ⟨total, summed, e⟩ := h.exists_isInteger_squares
  have rounded := h.isUnsigned_sum_squares.isRounded_div summed.isFinite h.isPositive_sub_one
  rw [← h.variance_eq, summed.toRat_eq, e, h.isInteger_sub_one.toRat_eq, Int.cast_natCast,
    Nat.cast_sub (by omega), Nat.cast_one] at rounded
  exact rounded

theorem isRoundedRoot_deviation (h : IsCentered series) :
    IsRoundedRoot (variance series).toRat (deviation series (mean series)) := by
  obtain ⟨units, representable, e⟩ := h.exists_variance
  rw [deviation_eq_sqrt, e]
  exact isRoundedRoot_sqrt representable

/-- **The order does not matter** for the deviation, as the sums of the squares are the same. -/
theorem deviation_eq_of_perm (h : IsCentered series) (perm : series'.toList.Perm series.toList) :
    deviation series' (mean series') = deviation series (mean series) := by
  have h' := h.of_perm perm
  obtain ⟨total, summed, e⟩ := h.exists_isInteger_squares
  obtain ⟨total', summed', e'⟩ := h'.exists_isInteger_squares
  have same : sum (squares series') = sum (squares series) := by
    apply h'.isUnsigned_sum_squares.eq_of_toRat_eq h.isUnsigned_sum_squares summed'.isFinite
      summed.isFinite
    rw [summed'.toRat_eq, summed.toRat_eq, e, e', spread_of_perm perm]
  rw [deviation_eq_sqrt, deviation_eq_sqrt, variance, variance, same, size_of_perm perm]

theorem spread_eq_zero (h : IsCentered series)
    (equal : ∀ x ∈ series, ∀ y ∈ series, x.toRat = y.toRat) : spread series = 0 := by
  apply List.sum_eq_zero
  intro square mem
  obtain ⟨x, hx, rfl⟩ := List.mem_map.1 mem
  have constant : exactSum series.toList = series.size * x.toRat := by
    rw [exactSum, List.sum_eq_card_nsmul _ x.toRat, List.length_map, Array.length_toList,
      nsmul_eq_mul]
    intro value mem
    obtain ⟨y, hy, rfl⟩ := List.mem_map.1 mem
    exact equal y (by simpa using hy) x (by simpa using hx)
  rw [constant, mul_div_cancel_left₀ _ h.size_ne_zero, sub_self, zero_pow two_ne_zero]

theorem deviation_eq_zero (h : IsCentered series) (none : spread series = 0) :
    deviation series (mean series) = .zero false := by
  have quotient : variance series = .zero false := by
    apply h.isRounded_variance.underflow.2
    rw [none, zero_div]
    positivity
  rw [deviation_eq_sqrt, quotient, zero, sqrt_finite, if_pos rfl]

theorem one_le_spread (h : IsCentered series) (some : 0 < spread series) : 1 ≤ spread series := by
  obtain ⟨total, -, e⟩ := h.exists_isInteger_squares
  rw [← e] at some ⊢
  exact_mod_cast some

/-- Squares that come to one are far from being lost when they are divided by a count of 53 bits. -/
theorem variance_ne_zero (h : IsCentered series) (some : 0 < spread series) :
    variance series ≠ .zero false := by
  have enough : (2 : ℚ) ≤ series.size := by exact_mod_cast h.enough
  have short : (series.size : ℚ) ≤ 2 ^ 53 := by exact_mod_cast h.short
  have positive : (0 : ℚ) < series.size - 1 := by linarith
  have below : (series.size : ℚ) - 1 ≤ 2 ^ 53 := by linarith
  rw [ne_eq, h.isRounded_variance.underflow, not_le]
  calc (1 : ℚ) / 2 ^ 1075 < 1 / 2 ^ 53 :=
        one_div_lt_one_div_of_lt (by positivity) (pow_lt_pow_right₀ one_lt_two (by norm_num))
    _ ≤ 1 / (series.size - 1) := one_div_le_one_div_of_le positive below
    _ ≤ spread series / (series.size - 1) :=
        div_le_div_of_nonneg_right (h.one_le_spread some) positive.le

theorem deviation_ne_zero (h : IsCentered series) (some : 0 < spread series) :
    (deviation series (mean series)).toRat ≠ 0 := by
  obtain ⟨units, representable, e⟩ := h.exists_variance
  have nonzero : units ≠ 0 := by
    rintro rfl
    exact h.variance_ne_zero some e
  obtain ⟨root, representable', e', large, -⟩ := exists_sqrt_eq representable nonzero
  rw [deviation_eq_sqrt, e, e', toRat_finite]
  refine div_ne_zero (Int.cast_ne_zero.2 ?_) unitsPerOne_pos.ne'
  rw [signed, if_neg Bool.false_ne_true]
  omega

end IsCentered

/-! ## Main result -/

/-- **Means and deviations of whole numbers** do not depend on the order of the values; the mean is
rounded once, the deviation is the rounded root of a rounded quotient. -/
theorem whole_numbers_are_exact (h : IsIntegral series) :
    IsNearestTo (exactSum series.toList / series.size) (mean series) ∧
      (∀ series' : Array Binary64, series'.toList.Perm series.toList →
        (mean series').eqv (mean series)) ∧
      (IsCentered series →
        (∃ quotient, IsRounded false (spread series / (series.size - 1)) quotient ∧
          IsRoundedRoot quotient.toRat (deviation series (mean series))) ∧
        ((∀ x ∈ series, ∀ y ∈ series, x.toRat = y.toRat) →
          deviation series (mean series) = .zero false) ∧
        (∀ x ∈ series, ∀ y ∈ series, x.toRat ≠ y.toRat →
          (deviation series (mean series)).toRat ≠ 0) ∧
        ∀ series' : Array Binary64, series'.toList.Perm series.toList →
          deviation series' (mean series') = deviation series (mean series)) := by
  refine ⟨h.isNearestTo_mean, fun _ perm => h.mean_eqv_of_perm perm, fun centered => ⟨?_, ?_, ?_, ?_⟩⟩
  · exact ⟨variance series, centered.isRounded_variance, centered.isRoundedRoot_deviation⟩
  · exact fun equal => centered.deviation_eq_zero (centered.spread_eq_zero equal)
  · exact fun x hx y hy other => centered.deviation_ne_zero (spread_pos hx hy other)
  · exact fun _ perm => centered.deviation_eq_of_perm perm

/-- Four numbers around three, in two orders, and a number twice. -/
theorem counts_around_three :
    IsNearestTo 3 (mean #[.ofNat 1, .ofNat 2, .ofNat 3, .ofNat 6]) ∧
      (mean #[.ofNat 6, .ofNat 1, .ofNat 3, .ofNat 2]).eqv
        (mean #[.ofNat 1, .ofNat 2, .ofNat 3, .ofNat 6]) ∧
      (∃ quotient, IsRounded false (14 / 3) quotient ∧ IsRoundedRoot quotient.toRat
        (deviation #[.ofNat 1, .ofNat 2, .ofNat 3, .ofNat 6]
          (mean #[.ofNat 1, .ofNat 2, .ofNat 3, .ofNat 6]))) ∧
      (deviation #[.ofNat 1, .ofNat 2, .ofNat 3, .ofNat 6]
        (mean #[.ofNat 1, .ofNat 2, .ofNat 3, .ofNat 6])).toRat ≠ 0 ∧
      deviation #[.ofNat 6, .ofNat 1, .ofNat 3, .ofNat 2]
          (mean #[.ofNat 6, .ofNat 1, .ofNat 3, .ofNat 2]) =
        deviation #[.ofNat 1, .ofNat 2, .ofNat 3, .ofNat 6]
          (mean #[.ofNat 1, .ofNat 2, .ofNat 3, .ofNat 6]) ∧
      deviation #[.ofNat 3, .ofNat 3] (mean #[.ofNat 3, .ofNat 3]) = .zero false := by
  have four : IsCentered #[.ofNat 1, .ofNat 2, .ofNat 3, .ofNat 6] :=
    { nonempty := by decide
      short := by decide
      whole := @whole_of_counts [1, 2, 3, 6] (by decide)
      bounded := by decide +kernel
      enough := by decide
      divides := ⟨3, by decide +kernel⟩
      close := by decide +kernel }
  have twice : IsCentered #[.ofNat 3, .ofNat 3] :=
    { nonempty := by decide
      short := by decide
      whole := @whole_of_counts [3, 3] (by decide)
      bounded := by decide +kernel
      enough := by decide
      divides := ⟨3, by decide +kernel⟩
      close := by decide +kernel }
  have exact_mean : exactSum [.ofNat 1, .ofNat 2, .ofNat 3, .ofNat 6] / (4 : Nat) = 3 := by
    decide +kernel
  have exact_quotient : spread #[.ofNat 1, .ofNat 2, .ofNat 3, .ofNat 6] / ((4 : Nat) - 1) = 14 / 3 := by
    decide +kernel
  have reordered : [Binary64.ofNat 6, .ofNat 1, .ofNat 3, .ofNat 2].Perm
      [.ofNat 1, .ofNat 2, .ofNat 3, .ofNat 6] := by decide +kernel
  obtain ⟨mean_four, mean_reordered, deviations⟩ := whole_numbers_are_exact four.toIsIntegral
  obtain ⟨quotient, -, different, deviation_reordered⟩ := deviations four
  obtain ⟨-, -, deviations⟩ := whole_numbers_are_exact twice.toIsIntegral
  obtain ⟨-, equal, -, -⟩ := deviations twice
  refine ⟨?_, mean_reordered _ reordered, ?_, ?_, deviation_reordered _ reordered, ?_⟩
  · rwa [← exact_mean]
  · rwa [← exact_quotient]
  · exact different (.ofNat 1) (by simp) (.ofNat 2) (by simp) (by decide +kernel)
  · exact equal (by simp)

end ColumnStats
