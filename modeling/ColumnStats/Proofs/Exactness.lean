import ColumnStats.Proofs.Arithmetic
import ColumnStats.Proofs.MeanError

/-!
# Exact arithmetic

Every operation rounds its exact result once. Whole numbers of 53 bits are numbers, so that nothing
is lost where the exact result is one.

* `IsNearestTo`: the number that a rational is rounded to, whichever sign a zero has;
  `isNearestTo_add`, `isNearestTo_sub`, `isNearestTo_mul`, `isNearestTo_div`: **each operation rounds
  once**;
* `IsNearestTo.abs_sub_le`: **no finite number is nearer**; `IsNearestTo.abs_sub_le_roundoff`: how far
  away the nearest one can be; `IsNearestTo.abs_toRat_le`: how much larger; `IsNearestTo.toRat_eq`: what
  is a number already is kept;
  `IsNearestTo.between`: **numbers that bound the exact result bound the rounded one**;
* `IsInteger`: a number that is a whole number; `IsNearestTo.isInteger`: **whole numbers of 53 bits are
  kept**;
* `eq_or_toRat_eq_zero`, `IsUnsigned.eq_of_toRat_eq`: numbers with one value differ at most in the
  sign of zero;
* `toRat_add_mono`, `toRat_mul_mono`: **sums and products grow with their operands**;
* `IsInteger.foldl`, `exists_isInteger_sum`: **sums of whole numbers are exact**, step by step.
-/

namespace ColumnStats

namespace Binary64

variable {x y z : Binary64} {a b : ℤ}

/-! ## One rounding -/

/-- The number that a rational is rounded to; a zero may have either sign. -/
def IsNearestTo (exact : ℚ) (x : Binary64) : Prop :=
  ∃ negative magnitude, 0 ≤ magnitude ∧ withSign negative magnitude = exact ∧
    IsRounded negative magnitude x

theorem withSign_mul_withSign (s t : Bool) (p q : ℚ) :
    withSign s p * withSign t q = withSign (s ^^ t) (p * q) := by
  cases s <;> cases t <;> simp [withSign]

theorem withSign_div_withSign (s t : Bool) (p q : ℚ) :
    withSign s p / withSign t q = withSign (s ^^ t) (p / q) := by
  cases s <;> cases t <;> simp [withSign, neg_div, div_neg]

theorem isNearestTo_ofFraction (negative : Bool) (num : Nat) {den : Nat} (positive : 0 < den) :
    IsNearestTo (withSign negative (num / den / unitsPerOne)) (ofFraction negative num den) := by
  refine ⟨negative, num / den / unitsPerOne, ?_, rfl, isRounded_ofFraction negative num positive⟩
  exact div_nonneg (by positivity) unitsPerOne_pos.le

theorem isNearestTo_add (finite : x.isFinite) (finite' : y.isFinite) :
    IsNearestTo (x.toRat + y.toRat) (x + y) := by
  obtain ⟨s, m, hm, rfl⟩ := exists_units_of_isFinite finite
  obtain ⟨t, n, hn, rfl⟩ := exists_units_of_isFinite finite'
  rw [toRat_finite, toRat_finite, ← add_div, ← Int.cast_add, finite_add_finite]
  split
  next none =>
    have vanishing := isNearestTo_ofFraction (s && t) 0 Nat.one_pos
    rw [Nat.cast_zero, zero_div, zero_div, withSign_zero, ofFraction_zero] at vanishing
    rwa [none, Int.cast_zero, zero_div]
  next =>
    have rounded := isNearestTo_ofFraction (decide (signed s m + signed t n < 0))
      (signed s m + signed t n).natAbs Nat.one_pos
    rwa [Nat.cast_one, div_one, withSign_natAbs] at rounded

theorem isFinite_neg (finite : x.isFinite) : (-x).isFinite := by
  obtain ⟨s, m, hm, rfl⟩ := exists_units_of_isFinite finite
  rfl

theorem toRat_neg (finite : x.isFinite) : (-x).toRat = -x.toRat := by
  obtain ⟨s, m, hm, rfl⟩ := exists_units_of_isFinite finite
  cases s with
  | false => rfl
  | true => exact (neg_neg _).symm

theorem isNearestTo_sub (finite : x.isFinite) (finite' : y.isFinite) :
    IsNearestTo (x.toRat - y.toRat) (x - y) := by
  rw [sub_eq_add_neg, ← toRat_neg finite']
  exact isNearestTo_add finite (isFinite_neg finite')

theorem abs_toRat_sub_sub_le (finite : (x - y).isFinite) (finite' : y.isFinite) :
    |(x - y).toRat - (x.toRat - y.toRat)| ≤ unitRoundoff * |x.toRat - y.toRat| := by
  rw [sub_eq_add_neg x.toRat, ← toRat_neg finite']
  exact abs_toRat_add_sub_le finite

theorem isNearestTo_mul (finite : x.isFinite) (finite' : y.isFinite) :
    IsNearestTo (x.toRat * y.toRat) (x * y) := by
  obtain ⟨s, m, hm, rfl⟩ := exists_units_of_isFinite finite
  obtain ⟨t, n, hn, rfl⟩ := exists_units_of_isFinite finite'
  have one : 0 < unitsPerOne := Nat.cast_pos.1 unitsPerOne_pos
  have rounded := isNearestTo_ofFraction (s ^^ t) (m * n) one
  rw [toRat, toRat, withSign_mul_withSign, finite_mul_finite, div_mul_div_comm, ← div_div]
  rwa [Nat.cast_mul] at rounded

theorem isRounded_div {s t : Bool} {m n : Nat} {hm : Representable m} {hn : Representable n}
    (nonzero : n ≠ 0) : IsRounded (s ^^ t) (m / n) (finite s m hm / finite t n hn) := by
  have rounded := isRounded_ofFraction (s ^^ t) (m * unitsPerOne) (Nat.pos_of_ne_zero nonzero)
  rwa [Nat.cast_mul, div_right_comm, mul_div_cancel_right₀ _ unitsPerOne_pos.ne',
    ← finite_div_finite nonzero] at rounded

theorem isNearestTo_div (finite : x.isFinite) (finite' : y.isFinite) (nonzero : y.toRat ≠ 0) :
    IsNearestTo (x.toRat / y.toRat) (x / y) := by
  obtain ⟨s, m, hm, rfl⟩ := exists_units_of_isFinite finite
  obtain ⟨t, n, hn, rfl, hn0⟩ := exists_units_of_toRat_ne_zero finite' nonzero
  refine ⟨s ^^ t, m / n, by positivity, ?_, isRounded_div hn0⟩
  rw [toRat, toRat, withSign_div_withSign, div_div_div_cancel_right₀ unitsPerOne_pos.ne']

theorem abs_withSign (negative : Bool) {magnitude : ℚ} (nonneg : 0 ≤ magnitude) :
    |withSign negative magnitude| = magnitude := by
  cases negative with
  | false => exact abs_of_nonneg nonneg
  | true => exact (abs_neg _).trans (abs_of_nonneg nonneg)

theorem abs_toRat_lt (finite : x.isFinite) : |x.toRat| < 2 ^ 1024 - 2 ^ 970 := by
  obtain ⟨s, m, hm, rfl⟩ := exists_units_of_isFinite finite
  rw [abs_toRat_finite]
  refine hm.div_unitsPerOne_le.trans_lt (sub_lt_sub_left ?_ _)
  exact pow_lt_pow_right₀ one_lt_two (by norm_num)

theorem exists_fraction_eq {quotient : ℚ} (nonneg : 0 ≤ quotient) :
    ∃ num den : Nat, 0 < den ∧ (num / den : ℚ) = quotient := by
  lift quotient to ℚ≥0 using nonneg
  exact ⟨quotient.num, quotient.den, quotient.den_pos, (NNRat.cast_def quotient).symm⟩

namespace IsNearestTo

variable {exact exact' : ℚ}

theorem isFinite (h : IsNearestTo exact x) (small : |exact| < 2 ^ 1024 - 2 ^ 970) : x.isFinite := by
  obtain ⟨negative, magnitude, nonneg, rfl, rounded⟩ := h
  rw [abs_withSign negative nonneg] at small
  obtain ⟨units, representable, rfl, -⟩ := rounded.nearest small
  rfl

theorem isFinite_of_le {e : Nat} (h : IsNearestTo exact x) (small : |exact| ≤ 2 ^ e)
    (below : e ≤ 1023) : x.isFinite := by
  have twice : (2 : ℚ) ^ 1024 = 2 * 2 ^ 1023 := pow_succ' 2 1023
  have gap : (2 : ℚ) ^ 970 < 2 ^ 1023 := pow_lt_pow_right₀ one_lt_two (by norm_num)
  refine h.isFinite ((small.trans (pow_le_pow_right₀ one_le_two below)).trans_lt ?_)
  rw [twice]
  generalize (2 : ℚ) ^ 1023 = half at *
  generalize (2 : ℚ) ^ 970 = spacing at *
  linarith only [gap]

theorem abs_sub_le (h : IsNearestTo exact x) (finite : x.isFinite) (finite' : y.isFinite) :
    |x.toRat - exact| ≤ |y.toRat - exact| := by
  obtain ⟨negative, magnitude, nonneg, rfl, rounded⟩ := h
  refine rounded.abs_toRat_sub_le (not_le.1 fun large => ?_) finite'
  rw [rounded.overflow.2 large] at finite
  cases finite

/-- **One rounding has a relative error**, and one of half a unit below the first spacing. -/
theorem abs_sub_le_roundoff (h : IsNearestTo exact x) (finite : x.isFinite) :
    |x.toRat - exact| ≤ unitRoundoff * |exact| + 1 / 2 ^ 1075 := by
  obtain ⟨negative, magnitude, nonneg, rfl, rounded⟩ := h
  have small : magnitude < 2 ^ 1024 - 2 ^ 970 := not_le.1 fun large => by
    rw [rounded.overflow.2 large] at finite
    cases finite
  -- the same rational as a fraction of units
  obtain ⟨num, den, positive, units⟩ :=
    exists_fraction_eq (mul_nonneg nonneg unitsPerOne_pos.le)
  have magnitude_eq : (num / den / unitsPerOne : ℚ) = magnitude := by
    rw [units, mul_div_cancel_right₀ _ unitsPerOne_pos.ne']
  have fraction := isRounded_ofFraction negative num positive
  rw [magnitude_eq] at fraction
  obtain ⟨_, _, e, -⟩ := fraction.nearest small
  have isFinite : (ofFraction negative num den).isFinite := by rw [e]; rfl
  have error := abs_toRat_ofFraction_sub isFinite
  rw [magnitude_eq] at error
  rw [abs_withSign negative nonneg]
  calc |x.toRat - withSign negative magnitude|
      ≤ |(ofFraction negative num den).toRat - withSign negative magnitude| :=
        rounded.abs_toRat_sub_le small isFinite
    _ = |(roundUnits num den : ℚ) - num / den| / unitsPerOne := error
    _ ≤ (num / den / 2 ^ 53 + 1 / 2) / unitsPerOne :=
        div_le_div_of_nonneg_right (abs_roundUnits_sub_le positive num) unitsPerOne_pos.le
    _ = unitRoundoff * magnitude + 1 / 2 ^ 1075 := by
        rw [units, add_div, half_eq_mul_unitsPerOne, mul_div_cancel_right₀ _ unitsPerOne_pos.ne',
          div_right_comm, mul_div_cancel_right₀ _ unitsPerOne_pos.ne', unitRoundoff,
          one_div_mul_eq_div]

theorem abs_toRat_le (h : IsNearestTo exact x) (finite : x.isFinite) :
    |x.toRat| ≤ 65 / 64 * |exact| + 1 / 2 ^ 60 := by
  have error := h.abs_sub_le_roundoff finite
  have triangle := abs_sub_abs_le_abs_sub x.toRat exact
  have relative := mul_le_mul_of_nonneg_right unitRoundoff_le (abs_nonneg exact)
  have half : (1 / 2 ^ 1075 : ℚ) ≤ 1 / 2 ^ 60 :=
    one_div_le_one_div_of_le (by positivity) (pow_le_pow_right₀ one_le_two (by norm_num))
  generalize (1 / 2 ^ 1075 : ℚ) = halfUnit at *
  linarith

/-- **What is rounded is kept if it is a number.** -/
theorem toRat_eq {z : Binary64} (h : IsNearestTo z.toRat x) (finite : z.isFinite) :
    x.isFinite ∧ x.toRat = z.toRat := by
  have isFinite := h.isFinite (abs_toRat_lt finite)
  have near := h.abs_sub_le isFinite finite
  rw [sub_self, abs_zero] at near
  exact ⟨isFinite, sub_eq_zero.1 (abs_eq_zero.1 (le_antisymm near (abs_nonneg _)))⟩

/-- **Numbers that bound the exact result bound the rounded one.** -/
theorem between (h : IsNearestTo exact x) {low high : Binary64} (finite : low.isFinite)
    (finite' : high.isFinite) (above : low.toRat ≤ exact) (below : exact ≤ high.toRat) :
    x.isFinite ∧ low.toRat ≤ x.toRat ∧ x.toRat ≤ high.toRat := by
  have small : |exact| < 2 ^ 1024 - 2 ^ 970 :=
    (abs_le_max_abs_abs above below).trans_lt (max_lt (abs_toRat_lt finite) (abs_toRat_lt finite'))
  have isFinite := h.isFinite small
  have lower := h.abs_sub_le isFinite finite
  have upper := h.abs_sub_le isFinite finite'
  rw [abs_sub_comm low.toRat, abs_of_nonneg (sub_nonneg.2 above)] at lower
  rw [abs_of_nonneg (sub_nonneg.2 below)] at upper
  obtain ⟨lower, -⟩ := abs_le.1 lower
  obtain ⟨-, upper⟩ := abs_le.1 upper
  exact ⟨isFinite, by linarith, by linarith⟩

theorem toRat_le (h : IsNearestTo exact x) (h' : IsNearestTo exact' y) (finite : x.isFinite)
    (finite' : y.isFinite) (less : exact < exact') : x.toRat ≤ y.toRat :=
  le_of_abs_sub_le (h.abs_sub_le finite finite') (h'.abs_sub_le finite' finite) less

end IsNearestTo

/-! ## Whole numbers -/

/-- A finite number that is the whole number `a`. -/
structure IsInteger (a : ℤ) (x : Binary64) : Prop where
  isFinite : x.isFinite
  toRat_eq : x.toRat = a

theorem exists_isInteger (small : |a| ≤ 2 ^ 53) : ∃ x, IsInteger a x := by
  have short : a.natAbs ≤ 2 ^ 53 := by
    zify
    exact small
  have representable := representable_mul_unitsPerOne short (Nat.zero_le 970)
  rw [Nat.pow_zero, Nat.mul_one] at representable
  refine ⟨finite (a < 0) (a.natAbs * unitsPerOne) representable, rfl, ?_⟩
  have value := withSign_natAbs a 1
  rw [toRat, Nat.cast_mul, mul_div_cancel_right₀ _ unitsPerOne_pos.ne']
  rwa [div_one, div_one] at value

theorem IsNearestTo.isInteger (h : IsNearestTo a x) (small : |a| ≤ 2 ^ 53) : IsInteger a x := by
  obtain ⟨z, finite, value⟩ := exists_isInteger small
  rw [← value] at h
  obtain ⟨isFinite, kept⟩ := h.toRat_eq finite
  exact ⟨isFinite, kept.trans value⟩

theorem isInteger_zero (negative : Bool) : IsInteger 0 (zero negative) where
  isFinite := rfl
  toRat_eq := by rw [zero, toRat, Nat.cast_zero, zero_div, withSign_zero, Int.cast_zero]

theorem isInteger_ofNat {n : Nat} (short : n ≤ 2 ^ 53) : IsInteger n (ofNat n) := by
  obtain ⟨representable, e⟩ := ofNat_eq short
  rw [e]
  refine ⟨rfl, ?_⟩
  rw [toRat, Nat.cast_mul, mul_div_cancel_right₀ _ unitsPerOne_pos.ne']
  exact (Int.cast_natCast n).symm

theorem IsInteger.toRat_nonneg (h : IsInteger a x) (nonneg : 0 ≤ a) : 0 ≤ x.toRat := by
  rw [h.toRat_eq]
  exact_mod_cast nonneg

theorem IsInteger.neg (h : IsInteger a x) : IsInteger (-a) (-x) where
  isFinite := isFinite_neg h.isFinite
  toRat_eq := by rw [toRat_neg h.isFinite, h.toRat_eq, Int.cast_neg]

theorem IsInteger.add (hx : IsInteger a x) (hy : IsInteger b y) (small : |a + b| ≤ 2 ^ 53) :
    IsInteger (a + b) (x + y) := by
  have rounded := isNearestTo_add hx.isFinite hy.isFinite
  rw [hx.toRat_eq, hy.toRat_eq, ← Int.cast_add] at rounded
  exact rounded.isInteger small

theorem IsInteger.sub (hx : IsInteger a x) (hy : IsInteger b y) (small : |a - b| ≤ 2 ^ 53) :
    IsInteger (a - b) (x - y) := by
  rw [sub_eq_add_neg] at small ⊢
  exact hx.add hy.neg small

theorem IsInteger.mul (hx : IsInteger a x) (hy : IsInteger b y) (small : |a * b| ≤ 2 ^ 53) :
    IsInteger (a * b) (x * y) := by
  have rounded := isNearestTo_mul hx.isFinite hy.isFinite
  rw [hx.toRat_eq, hy.toRat_eq, ← Int.cast_mul] at rounded
  exact rounded.isInteger small

theorem IsNearestTo.between_zero {exact : ℚ} (h : IsNearestTo exact x) (finite : y.isFinite)
    (nonneg : 0 ≤ exact) (le : exact ≤ y.toRat) : x.isFinite ∧ 0 ≤ x.toRat ∧ x.toRat ≤ y.toRat := by
  have none := isInteger_zero false
  have bounds := h.between none.isFinite finite (by rwa [none.toRat_eq, Int.cast_zero]) le
  rwa [none.toRat_eq, Int.cast_zero] at bounds

/-! ## Equal values -/

theorem toRat_finite_inj {s t : Bool} {m n : Nat} {hm : Representable m} {hn : Representable n} :
    (finite s m hm).toRat = (finite t n hn).toRat ↔ signed s m = signed t n := by
  rw [toRat_finite, toRat_finite, div_left_inj' unitsPerOne_pos.ne', Int.cast_inj]

theorem eq_or_toRat_eq_zero (finite : x.isFinite) (finite' : y.isFinite) (same : x.toRat = y.toRat) :
    x = y ∨ x.toRat = 0 := by
  obtain ⟨s, m, hm, rfl⟩ := exists_units_of_isFinite finite
  obtain ⟨t, n, hn, rfl⟩ := exists_units_of_isFinite finite'
  rw [toRat_finite_inj] at same
  rw [toRat_finite]
  by_cases sign : s = t
  · left
    obtain rfl := sign
    obtain rfl : m = n := by cases s <;> simpa [signed] using same
    rfl
  · right
    have none : signed s m = 0 := by
      unfold signed at same ⊢
      cases s <;> cases t <;> simp_all
    rw [none, Int.cast_zero, zero_div]

theorem eqv_of_toRat_eq (finite : x.isFinite) (finite' : y.isFinite) (same : x.toRat = y.toRat) :
    x.eqv y := by
  obtain ⟨s, m, hm, rfl⟩ := exists_units_of_isFinite finite
  obtain ⟨t, n, hn, rfl⟩ := exists_units_of_isFinite finite'
  exact decide_eq_true (toRat_finite_inj.1 same)

theorem toRat_add_congr (finite : x.isFinite) (finite' : y.isFinite) (same : x.toRat = y.toRat)
    (term : z.isFinite) : (x + z).toRat = (y + z).toRat := by
  rcases eq_or_toRat_eq_zero finite finite' same with rfl | none
  · rfl
  · have rounded := isNearestTo_add finite term
    have rounded' := isNearestTo_add finite' term
    rw [none, zero_add] at rounded
    rw [← same, none, zero_add] at rounded'
    rw [(rounded.toRat_eq term).2, (rounded'.toRat_eq term).2]

theorem toRat_add_mono (finite : x.isFinite) (finite' : y.isFinite) (term : z.isFinite)
    (isFinite : (x + z).isFinite) (isFinite' : (y + z).isFinite) (le : x.toRat ≤ y.toRat) :
    (x + z).toRat ≤ (y + z).toRat := by
  rcases le.lt_or_eq with less | same
  · exact (isNearestTo_add finite term).toRat_le (isNearestTo_add finite' term) isFinite isFinite'
      (add_lt_add_left less _)
  · exact (toRat_add_congr finite finite' same term).le

theorem toRat_mul_of_eq_zero (finite : x.isFinite) (finite' : y.isFinite)
    (none : x.toRat * y.toRat = 0) : (x * y).toRat = 0 := by
  have rounded := isNearestTo_mul finite finite'
  rw [none, ← Int.cast_zero] at rounded
  exact (rounded.isInteger (by decide)).toRat_eq.trans Int.cast_zero

theorem toRat_mul_mono (finite : x.isFinite) (finite' : y.isFinite) (factor : z.isFinite)
    (nonneg : 0 ≤ z.toRat) (isFinite : (x * z).isFinite) (isFinite' : (y * z).isFinite)
    (le : x.toRat ≤ y.toRat) : (x * z).toRat ≤ (y * z).toRat := by
  rcases nonneg.lt_or_eq with positive | none
  · rcases le.lt_or_eq with less | same
    · exact (isNearestTo_mul finite factor).toRat_le (isNearestTo_mul finite' factor) isFinite
        isFinite' (mul_lt_mul_of_pos_right less positive)
    · rcases eq_or_toRat_eq_zero finite finite' same with rfl | none
      · rfl
      · rw [toRat_mul_of_eq_zero finite factor (by rw [none, zero_mul]),
          toRat_mul_of_eq_zero finite' factor (by rw [← same, none, zero_mul])]
  · rw [toRat_mul_of_eq_zero finite factor (by rw [← none, mul_zero]),
      toRat_mul_of_eq_zero finite' factor (by rw [← none, mul_zero])]

theorem toRat_div_of_eq_zero (finite : x.isFinite) (none : x.toRat = 0) (divisor : z.isFinite)
    (nonzero : z.toRat ≠ 0) : (x / z).toRat = 0 := by
  have rounded := isNearestTo_div finite divisor nonzero
  rw [none, zero_div, ← Int.cast_zero] at rounded
  exact (rounded.isInteger (by decide)).toRat_eq.trans Int.cast_zero

theorem toRat_div_congr (finite : x.isFinite) (finite' : y.isFinite) (same : x.toRat = y.toRat)
    (divisor : z.isFinite) (nonzero : z.toRat ≠ 0) : (x / z).toRat = (y / z).toRat := by
  rcases eq_or_toRat_eq_zero finite finite' same with rfl | none
  · rfl
  · rw [toRat_div_of_eq_zero finite none divisor nonzero,
      toRat_div_of_eq_zero finite' (same ▸ none) divisor nonzero]

theorem IsUnsigned.exists_units (h : x.IsUnsigned) (finite : x.isFinite) :
    ∃ units representable, x = .finite false units representable := by
  rcases h.eq_or with rfl | exists_units
  · cases finite
  · exact exists_units

theorem IsUnsigned.toRat_nonneg (h : x.IsUnsigned) : 0 ≤ x.toRat := by
  rcases h.eq_or with rfl | ⟨m, hm, rfl⟩
  · exact le_refl 0
  · exact div_nonneg m.cast_nonneg unitsPerOne_pos.le

theorem IsUnsigned.isRounded_div (h : x.IsUnsigned) (finite : x.isFinite) (positive : y.IsPositive) :
    IsRounded false (x.toRat / y.toRat) (x / y) := by
  obtain ⟨m, hm, rfl⟩ := h.exists_units finite
  obtain ⟨n, hn, rfl, nonzero⟩ := positive.exists_units
  have rounded := @Binary64.isRounded_div false false m n hm hn nonzero
  rwa [← div_div_div_cancel_right₀ unitsPerOne_pos.ne'] at rounded

theorem IsUnsigned.eq_of_toRat_eq (h : x.IsUnsigned) (h' : y.IsUnsigned) (finite : x.isFinite)
    (finite' : y.isFinite) (same : x.toRat = y.toRat) : x = y := by
  obtain ⟨m, hm, rfl⟩ := h.exists_units finite
  obtain ⟨n, hn, rfl⟩ := h'.exists_units finite'
  obtain rfl : m = n := by simpa [signed] using toRat_finite_inj.1 same
  rfl

theorem ofNat_sub_one {n : Nat} (enough : 2 ≤ n) (short : n ≤ 2 ^ 53) :
    ofNat n - ofNat 1 = ofNat (n - 1) := by
  have lower : IsInteger ((n - 1 : Nat) : ℤ) (ofNat (n - 1)) := isInteger_ofNat (by omega)
  have difference : IsInteger ((n : ℤ) - (1 : Nat)) (ofNat n - ofNat 1) :=
    (isInteger_ofNat short).sub (isInteger_ofNat (by decide)) (by rw [abs_of_nonneg] <;> omega)
  rw [← Nat.cast_sub (by omega)] at difference
  refine (eq_or_toRat_eq_zero difference.isFinite lower.isFinite
    (difference.toRat_eq.trans lower.toRat_eq.symm)).resolve_right fun none => ?_
  rw [difference.toRat_eq, Int.cast_natCast, Nat.cast_eq_zero] at none
  omega

end Binary64

/-! ## Sums -/

open Binary64

variable {values : List Binary64} {series series' : Array Binary64} {start : Binary64} {a : ℤ}

theorem exactSum_cons (x : Binary64) (rest : List Binary64) :
    exactSum (x :: rest) = x.toRat + exactSum rest := by
  rw [exactSum, List.map_cons, List.sum_cons]
  rfl

theorem magnitudeSum_cons (x : Binary64) (rest : List Binary64) :
    magnitudeSum (x :: rest) = |x.toRat| + magnitudeSum rest := by
  rw [magnitudeSum, List.map_cons, List.sum_cons]
  rfl

theorem magnitudeSum_nonneg (values : List Binary64) : 0 ≤ magnitudeSum values :=
  (abs_nonneg _).trans (abs_exactSum_le values)

/-- **Sums of whole numbers are exact**: no partial sum has more than 53 bits. -/
theorem Binary64.IsInteger.foldl (h : IsInteger a start) (whole : ∀ x ∈ values, ∃ b : ℤ, IsInteger b x)
    (bounded : |(a : ℚ)| + magnitudeSum values ≤ 2 ^ 53) :
    ∃ total : ℤ, IsInteger total (values.foldl (· + ·) start) ∧ total = a + exactSum values := by
  induction values generalizing start a with
  | nil => exact ⟨a, h, (add_zero _).symm⟩
  | cons x rest ih =>
    obtain ⟨⟨b, hb⟩, others⟩ := List.forall_mem_cons.1 whole
    rw [magnitudeSum_cons, hb.toRat_eq, ← add_assoc] at bounded
    have next : |(a : ℚ) + b| ≤ |(a : ℚ)| + |(b : ℚ)| := abs_add_le _ _
    have small : |a + b| ≤ 2 ^ 53 := by
      have := magnitudeSum_nonneg rest
      have : |(a : ℚ) + b| ≤ 2 ^ 53 := by linarith
      exact_mod_cast this
    obtain ⟨total, summed, e⟩ := ih (h.add hb small) others (by push_cast; linarith)
    refine ⟨total, summed, ?_⟩
    rw [e, exactSum_cons, hb.toRat_eq, Int.cast_add, add_assoc]

theorem exists_isInteger_sum (whole : ∀ x ∈ series, ∃ b : ℤ, IsInteger b x)
    (bounded : magnitudeSum series.toList ≤ 2 ^ 53) :
    ∃ total : ℤ, IsInteger total (sum series) ∧ total = exactSum series.toList := by
  rw [sum_eq_foldl]
  have whole : ∀ x ∈ series.toList, ∃ b : ℤ, IsInteger b x := fun x hx => whole x (by simpa using hx)
  have summed := (isInteger_zero true).foldl whole (by simpa using bounded)
  rwa [Int.cast_zero, zero_add] at summed

end ColumnStats
