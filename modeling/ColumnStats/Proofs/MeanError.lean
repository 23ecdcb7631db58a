import ColumnStats.Proofs.Arithmetic

/-!
# Accuracy of the mean

How far the mean of a series is from the mean of its exact values.

* `unitRoundoff`, `growth`: the relative error of one rounding, and of several in sequence;
* `abs_toRat_add_sub_le`: a sum that stays finite has a relative error only;
* `toRat_div_ofNat`: a quotient by a count is finite, and adds an error of its own;
* `isFinite_of_sum`: **a finite sum** has only finite terms and partial sums;
* `abs_toRat_foldl_sub_le`: **the error of a whole sum**, relative to the sum of the magnitudes;
* `mean_is_accurate`: **the mean is accurate**.
-/

namespace ColumnStats

open Binary64

variable {values : List Binary64} {series : Array Binary64} {start x y : Binary64}

/-! ## Roundoff -/

/-- The relative error of one rounding. -/
def unitRoundoff : ℚ := 1 / 2 ^ 53

/-- The relative error that roundings in sequence can reach. -/
def growth (steps : Nat) : ℚ := (1 + unitRoundoff) ^ steps - 1

theorem unitRoundoff_pos : 0 < unitRoundoff := by
  rw [unitRoundoff]
  positivity

theorem unitRoundoff_le : unitRoundoff ≤ 1 / 64 := by norm_num [unitRoundoff]

theorem growth_zero : growth 0 = 0 := by
  rw [growth, pow_zero, sub_self]

theorem growth_succ (steps : Nat) :
    growth (steps + 1) = (1 + unitRoundoff) * growth steps + unitRoundoff := by
  rw [growth, growth, pow_succ']
  ring

theorem growth_nonneg (steps : Nat) : 0 ≤ growth steps :=
  sub_nonneg.2 (one_le_pow₀ (by linarith [unitRoundoff_pos]))

/-! ## One addition -/

namespace Binary64

theorem toRat_finite (negative : Bool) {units : Nat} (representable : Representable units) :
    (finite negative units representable).toRat = signed negative units / unitsPerOne := by
  cases negative with
  | false => rfl
  | true =>
    change -(units / unitsPerOne : ℚ) = ((-units : Int) : ℚ) / unitsPerOne
    rw [Int.cast_neg, neg_div, Int.cast_natCast]

theorem withSign_div (negative : Bool) (a b : ℚ) :
    withSign negative a / b = withSign negative (a / b) := by
  cases negative with
  | false => rfl
  | true => exact neg_div b a

theorem withSign_natAbs (sum : Int) (one : ℚ) :
    withSign (decide (sum < 0)) (sum.natAbs / one) = sum / one := by
  rcases lt_or_ge sum 0 with negative | nonneg
  · rw [decide_eq_true negative, withSign, if_pos rfl, Nat.cast_natAbs, abs_of_neg negative,
      Int.cast_neg, neg_div, neg_neg]
  · rw [decide_eq_false (not_lt.2 nonneg), withSign, if_neg Bool.false_ne_true, Nat.cast_natAbs,
      abs_of_nonneg nonneg]

theorem abs_toRat_ofFraction_sub {negative : Bool} {num den : Nat}
    (finite : (ofFraction negative num den).isFinite) :
    |(ofFraction negative num den).toRat - withSign negative (num / den / unitsPerOne)| =
      |(roundUnits num den : ℚ) - num / den| / unitsPerOne := by
  rcases Nat.lt_or_ge (roundUnits num den) overflowUnits with small | large
  · obtain ⟨representable, e⟩ := ofFraction_of_lt small negative
    rw [e, toRat, abs_withSign_sub, ← sub_div, abs_div, abs_of_pos unitsPerOne_pos]
  · rw [ofFraction_of_le large] at finite
    cases finite

theorem isFinite_of_add (finite : (x + y).isFinite) : x.isFinite ∧ y.isFinite := by
  cases x with
  | nan => cases finite
  | infinite s =>
    cases y with
    | nan => cases finite
    | infinite t =>
      rw [infinite_add_infinite] at finite
      split at finite <;> cases finite
    | finite t n => cases finite
  | finite s m =>
    cases y with
    | nan => cases finite
    | infinite t => cases finite
    | finite t n => exact ⟨rfl, rfl⟩

theorem abs_toRat_add_sub_le (finite : (x + y).isFinite) :
    |(x + y).toRat - (x.toRat + y.toRat)| ≤ unitRoundoff * |x.toRat + y.toRat| := by
  obtain ⟨hx, hy⟩ := isFinite_of_add finite
  obtain ⟨s, m, hm, rfl⟩ := exists_units_of_isFinite hx
  obtain ⟨t, n, hn, rfl⟩ := exists_units_of_isFinite hy
  have exact_sum : (Binary64.finite s m hm).toRat + (Binary64.finite t n hn).toRat =
      (signed s m + signed t n : Int) / unitsPerOne := by
    rw [toRat_finite, toRat_finite, ← add_div, Int.cast_add]
  rw [exact_sum]
  rw [finite_add_finite] at finite ⊢
  generalize signed s m + signed t n = sum at finite ⊢
  by_cases none : sum = 0
  · rw [if_pos none, none, zero, toRat, Nat.cast_zero, zero_div, withSign_zero, Int.cast_zero,
      zero_div, sub_self, abs_zero, mul_zero]
  · rw [if_neg none] at finite ⊢
    have error := abs_toRat_ofFraction_sub finite
    rw [Nat.cast_one, div_one, withSign_natAbs] at error
    have magnitude : |(sum / unitsPerOne : ℚ)| = sum.natAbs / unitsPerOne := by
      rw [abs_div, abs_of_pos unitsPerOne_pos, Nat.cast_natAbs, Int.cast_abs]
    calc |(ofFraction (decide (sum < 0)) sum.natAbs 1).toRat - sum / unitsPerOne|
        = |(roundUnits sum.natAbs 1 : ℚ) - sum.natAbs| / unitsPerOne := error
      _ ≤ sum.natAbs / 2 ^ 53 / unitsPerOne :=
          div_le_div_of_nonneg_right (abs_roundUnits_one_sub_le _) unitsPerOne_pos.le
      _ = unitRoundoff * |(sum / unitsPerOne : ℚ)| := by
          rw [magnitude, unitRoundoff]
          ring

/-! ## One division -/

/-- **A quotient by a count is finite.** To the relative error comes half a unit, for quotients
below the first spacing. -/
theorem toRat_div_ofNat {n : Nat} (finite : x.isFinite) (positive : 0 < n) (short : n ≤ 2 ^ 53) :
    (x / ofNat n).isFinite ∧
      |(x / ofNat n).toRat - x.toRat / n| ≤ unitRoundoff * (|x.toRat| / n) + 1 / 2 ^ 1075 := by
  obtain ⟨s, m, hm, rfl⟩ := exists_units_of_isFinite finite
  obtain ⟨hn, e⟩ := ofNat_eq short
  have one : 0 < unitsPerOne := Nat.cast_pos.1 unitsPerOne_pos
  have divisor : 0 < n * unitsPerOne := Nat.mul_pos positive one
  have below : m * unitsPerOne ≤ m * (n * unitsPerOne) :=
    Nat.mul_le_mul_left _ (Nat.le_mul_of_pos_left _ positive)
  have quotient : ((m * unitsPerOne : Nat) : ℚ) / (n * unitsPerOne : Nat) = m / n := by
    rw [Nat.cast_mul, Nat.cast_mul, mul_div_mul_right _ _ unitsPerOne_pos.ne']
  rw [e, finite_div_finite divisor.ne', Bool.xor_false]
  -- divided by one or more, a count of units comes to no more than itself
  have isFinite : (ofFraction s (m * unitsPerOne) (n * unitsPerOne)).isFinite := by
    obtain ⟨representable, e⟩ :=
      ofFraction_of_lt ((roundUnits_le divisor hm.1 below).trans_lt hm.2) s
    rw [e]
    rfl
  have error := abs_toRat_ofFraction_sub isFinite
  have near := abs_roundUnits_sub_le divisor (m * unitsPerOne)
  rw [quotient] at error near
  have exact_quotient : (Binary64.finite s m hm).toRat / n = withSign s (m / n / unitsPerOne) := by
    rw [toRat, withSign_div, div_right_comm]
  have magnitude : |(Binary64.finite s m hm).toRat| / n = m / n / unitsPerOne := by
    rw [abs_toRat_finite, div_right_comm]
  rw [exact_quotient, magnitude]
  refine ⟨isFinite, error.trans_le ?_⟩
  rw [div_le_iff₀ unitsPerOne_pos, add_mul, ← half_eq_mul_unitsPerOne, mul_assoc,
    div_mul_cancel₀ _ unitsPerOne_pos.ne', unitRoundoff, one_div_mul_eq_div]
  exact near

end Binary64

/-! ## Sums -/

/-- The sum of the exact values. -/
def exactSum (values : List Binary64) : ℚ := (values.map toRat).sum

/-- The sum of the exact magnitudes. -/
def magnitudeSum (values : List Binary64) : ℚ := (values.map fun x => |x.toRat|).sum

theorem exactSum_append (values : List Binary64) (x : Binary64) :
    exactSum (values ++ [x]) = exactSum values + x.toRat := by
  rw [exactSum, List.map_append, List.sum_append, List.map_singleton, List.sum_singleton]
  rfl

theorem magnitudeSum_append (values : List Binary64) (x : Binary64) :
    magnitudeSum (values ++ [x]) = magnitudeSum values + |x.toRat| := by
  rw [magnitudeSum, List.map_append, List.sum_append, List.map_singleton, List.sum_singleton]
  rfl

theorem abs_exactSum_le (values : List Binary64) : |exactSum values| ≤ magnitudeSum values := by
  induction values using List.reverseRecOn with
  | nil => exact abs_zero.le
  | append_singleton values x ih =>
    rw [exactSum_append, magnitudeSum_append]
    exact (abs_add_le _ _).trans (add_le_add_left ih _)

theorem isFinite_of_foldl (finite : (values.foldl (· + ·) start).isFinite) :
    start.isFinite ∧ ∀ x ∈ values, x.isFinite := by
  induction values generalizing start with
  | nil => exact ⟨finite, by simp⟩
  | cons x rest ih =>
    obtain ⟨next, terms⟩ := ih finite
    obtain ⟨first, second⟩ := isFinite_of_add next
    exact ⟨first, List.forall_mem_cons.2 ⟨second, terms⟩⟩

/-- **A finite sum** has only finite terms, and all its partial sums are finite. -/
theorem isFinite_of_sum (finite : (sum series).isFinite) : (∀ x ∈ series, x.isFinite) ∧
    ∀ before after, series.toList = before ++ after →
      (before.foldl (· + ·) (zero true)).isFinite := by
  rw [sum_eq_foldl] at finite
  refine ⟨fun x hx => (isFinite_of_foldl finite).2 x (by simpa using hx), ?_⟩
  intro before after e
  rw [e, List.foldl_append] at finite
  exact (isFinite_of_foldl finite).1

theorem roundoff_add_error_le {computed exact magnitude : ℚ} {steps : Nat}
    (error : |computed - exact| ≤ growth steps * magnitude) (small : |exact| ≤ magnitude) :
    unitRoundoff * |computed| + |computed - exact| ≤ growth (steps + 1) * magnitude := by
  have size : |computed| ≤ (1 + growth steps) * magnitude := by
    have := abs_sub_abs_le_abs_sub computed exact
    linarith
  have roundoff := mul_le_mul_of_nonneg_left size unitRoundoff_pos.le
  rw [growth_succ]
  linarith

/-- **The error of a sum.** Each addition rounds a partial sum, so that the magnitudes of the terms
count, and not the size of the result. -/
theorem abs_toRat_foldl_sub_le (finite : (values.foldl (· + ·) start).isFinite) :
    |(values.foldl (· + ·) start).toRat - exactSum (start :: values)| ≤
      growth values.length * magnitudeSum (start :: values) := by
  -- the last addition rounds a partial sum that has the error of all the additions before
  induction values using List.reverseRecOn with
  | nil =>
    rw [List.foldl_nil, List.length_nil, growth_zero, zero_mul]
    exact le_of_eq (by simp [exactSum])
  | append_singleton values x ih =>
    rw [List.foldl_append, List.foldl_cons, List.foldl_nil] at finite ⊢
    have before := ih (isFinite_of_add finite).1
    have rounding := abs_toRat_add_sub_le finite
    have small := abs_exactSum_le (start :: (values ++ [x]))
    rw [← List.cons_append, exactSum_append, magnitudeSum_append] at small ⊢
    rw [List.length_append, List.length_singleton]
    generalize values.foldl (· + ·) start = sum at *
    have carried : |sum.toRat + x.toRat - (exactSum (start :: values) + x.toRat)| ≤
        growth values.length * (magnitudeSum (start :: values) + |x.toRat|) := by
      rw [add_sub_add_right_eq_sub]
      exact before.trans (mul_le_mul_of_nonneg_left (le_add_of_nonneg_right (abs_nonneg _))
        (growth_nonneg _))
    calc |(sum + x).toRat - (exactSum (start :: values) + x.toRat)|
        ≤ |(sum + x).toRat - (sum.toRat + x.toRat)| +
            |sum.toRat + x.toRat - (exactSum (start :: values) + x.toRat)| := abs_sub_le _ _ _
      _ ≤ unitRoundoff * |sum.toRat + x.toRat| +
            |sum.toRat + x.toRat - (exactSum (start :: values) + x.toRat)| :=
          add_le_add_left rounding _
      _ ≤ growth (values.length + 1) * (magnitudeSum (start :: values) + |x.toRat|) :=
          roundoff_add_error_le carried small

/-! ## Means -/

/-- **The mean is accurate** if the sum stays finite: to one rounding a value, and half a unit below
the first spacing. -/
theorem mean_is_accurate (nonempty : 1 ≤ series.size) (short : series.size ≤ 2 ^ 53)
    (finite : (sum series).isFinite) : (mean series).isFinite ∧
      |(mean series).toRat - exactSum series.toList / series.size| ≤
        ((1 + unitRoundoff) ^ series.size - 1) * magnitudeSum series.toList / series.size +
          1 / 2 ^ 1075 := by
  obtain ⟨x, rest, e⟩ := exists_toList_eq_cons nonempty
  have length : series.size = rest.length + 1 := by rw [← Array.length_toList, e, List.length_cons]
  have count : (0 : ℚ) < series.size := Nat.cast_pos.2 nonempty
  have summed : |(sum series).toRat - exactSum series.toList| ≤
      growth rest.length * magnitudeSum series.toList := by
    rw [sum_eq_of_toList e] at finite ⊢
    rw [e]
    exact abs_toRat_foldl_sub_le finite
  have total := roundoff_add_error_le summed (abs_exactSum_le series.toList)
  rw [← length] at total
  obtain ⟨isFinite, divided⟩ := toRat_div_ofNat finite nonempty short
  refine ⟨isFinite, ?_⟩
  rw [mean]
  generalize (1 / 2 ^ 1075 : ℚ) = halfUnit at divided ⊢
  calc |(sum series / ofNat series.size).toRat - exactSum series.toList / series.size|
      ≤ |(sum series / ofNat series.size).toRat - (sum series).toRat / series.size| +
          |(sum series).toRat / series.size - exactSum series.toList / series.size| :=
        abs_sub_le _ _ _
    _ ≤ unitRoundoff * (|(sum series).toRat| / series.size) + halfUnit +
          |(sum series).toRat - exactSum series.toList| / series.size := by
        rw [← sub_div, abs_div, abs_of_pos count]
        exact add_le_add_left divided _
    _ = (unitRoundoff * |(sum series).toRat| + |(sum series).toRat - exactSum series.toList|) /
          series.size + halfUnit := by ring
    _ ≤ growth series.size * magnitudeSum series.toList / series.size + halfUnit :=
        add_le_add_left (div_le_div_of_nonneg_right total count.le) _

/-- One is lost beside a large value that is taken away again: the mean of these three is zero, and
their exact mean is a third. -/
theorem cancelled_mean_is_accurate :
    let series := #[ofNat (2 ^ 53), ofNat 1, -ofNat (2 ^ 53)]
    mean series = zero false ∧ exactSum series.toList = 1 ∧
      |(mean series).toRat - 1 / 3| ≤
        ((1 + unitRoundoff) ^ 3 - 1) * (2 ^ 54 + 1) / 3 + 1 / 2 ^ 1075 := by
  intro series
  have cancelled : sum series = zero false := by decide +kernel
  have exact_sum : exactSum series.toList = 1 := by decide +kernel
  have magnitude : magnitudeSum series.toList = 2 ^ 54 + 1 := by decide +kernel
  have finite : (sum series).isFinite := by rw [cancelled]; rfl
  have accurate := mean_is_accurate (by decide) (by decide) finite
  rw [exact_sum, magnitude] at accurate
  exact ⟨by decide +kernel, exact_sum, accurate.2⟩

end ColumnStats
