import ColumnStats.Proofs.Exactness

/-!
# Means of equal values

The sum of copies of one number need not be a multiple of it: each addition rounds. The error of one
addition is at most the number itself, which is where the sum was before.

* `copies`: the sum of one copy and some more;
* `near_copies`: **how far the sum is from the multiple**; `isFinite_copies`: where it does not overflow;
  `toRat_copies`: **it is the multiple if all smaller multiples are numbers**;
* `isNegative_copies`: it has the sign of the copies, also where that is a zero;
* `mean_copies_near`: **how far the mean is from the number**;
* `mean_copies_eq`: the mean is the number itself if it compares equal to it.
-/

namespace ColumnStats

open Binary64

variable {x y : Binary64} {k : Nat}

/-! ## Sums -/

/-- The sum of one copy and `k` more, from the first to the last. -/
def copies (x : Binary64) (k : Nat) : Binary64 := (List.replicate k x).foldl (· + ·) x

theorem copies_zero (x : Binary64) : copies x 0 = x := rfl

theorem copies_succ (x : Binary64) (k : Nat) : copies x (k + 1) = copies x k + x := by
  rw [copies, List.replicate_succ', List.foldl_append]
  rfl

theorem sum_replicate (x : Binary64) (k : Nat) : sum (Array.replicate (k + 1) x) = copies x k := by
  refine sum_eq_of_toList ?_
  rw [Array.toList_replicate, List.replicate_succ]

theorem isFinite_of_copies (finite : (copies x k).isFinite) : x.isFinite := by
  cases k with
  | zero => exact finite
  | succ k =>
    rw [copies_succ] at finite
    exact (isFinite_of_add finite).2

theorem abs_toRat_add_sub_le_right (finite : (y + x).isFinite) :
    |(y + x).toRat - (y.toRat + x.toRat)| ≤ |x.toRat| := by
  obtain ⟨before, term⟩ := isFinite_of_add finite
  have near := (isNearestTo_add before term).abs_sub_le finite before
  rwa [sub_add_cancel_left, abs_neg] at near

theorem abs_add_le_of_near {sum a : ℚ} (near : |sum - (k + 1) * a| ≤ k * |a|) :
    |sum + a| ≤ 2 * (k + 1) * |a| := by
  have parts : sum + a = sum - (k + 1) * a + (k + 2) * a := by ring
  have multiple : |((k : ℚ) + 2) * a| = (k + 2) * |a| := by
    rw [abs_mul, abs_of_nonneg (by positivity)]
  have triangle := abs_add_le (sum - (k + 1) * a) ((k + 2) * a)
  rw [← parts, multiple] at triangle
  linarith

/-- **How far a sum of copies is from the multiple.** -/
theorem near_copies (finite : (copies x k).isFinite) :
    |(copies x k).toRat - (k + 1) * x.toRat| ≤ k * |x.toRat| ∧
      |(copies x k).toRat - (k + 1) * x.toRat| ≤ unitRoundoff * (k * (k + 1)) * |x.toRat| := by
  induction k with
  | zero => simp [copies_zero]
  | succ k ih =>
    rw [copies_succ] at finite ⊢
    obtain ⟨crude, fine⟩ := ih (isFinite_of_add finite).1
    have step := abs_toRat_add_sub_le_right finite
    have relative := abs_toRat_add_sub_le finite
    generalize copies x k = sum at *
    have size := mul_le_mul_of_nonneg_left (abs_add_le_of_near crude) unitRoundoff_pos.le
    have triangle := abs_add_le ((sum + x).toRat - (sum.toRat + x.toRat))
      (sum.toRat - (k + 1) * x.toRat)
    have split : (sum + x).toRat - ((k + 1 : Nat) + 1) * x.toRat =
        (sum + x).toRat - (sum.toRat + x.toRat) + (sum.toRat - (k + 1) * x.toRat) := by
      push_cast
      ring
    rw [split]
    push_cast
    exact ⟨by linarith, by linarith⟩

theorem abs_copies_le (finite : (copies x k).isFinite) :
    |(copies x k).toRat| ≤ 2 * (k + 1) * |x.toRat| := by
  obtain ⟨crude, -⟩ := near_copies finite
  have triangle := abs_sub_abs_le_abs_sub (copies x k).toRat ((k + 1) * x.toRat)
  have nonneg := abs_nonneg x.toRat
  rw [abs_mul, abs_of_nonneg (by positivity : (0 : ℚ) ≤ k + 1)] at triangle
  linarith

theorem isFinite_copies {e : Nat} (finite : x.isFinite) (small : (k + 1) * |x.toRat| ≤ 2 ^ e)
    (below : e ≤ 1022) : (copies x k).isFinite := by
  induction k with
  | zero => exact finite
  | succ k ih =>
    have nonneg := abs_nonneg x.toRat
    have before := ih ((mul_le_mul_of_nonneg_right (by push_cast; linarith) nonneg).trans small)
    rw [copies_succ]
    refine (isNearestTo_add before finite).isFinite_of_le (e := e + 1) ?_ (by omega)
    calc |(copies x k).toRat + x.toRat|
        ≤ 2 * (k + 1) * |x.toRat| := abs_add_le_of_near (near_copies before).1
      _ ≤ 2 * (((k + 1 : Nat) + 1) * |x.toRat|) := by push_cast; linarith
      _ ≤ 2 * 2 ^ e := mul_le_mul_of_nonneg_left small two_pos.le
      _ = 2 ^ (e + 1) := (pow_succ' 2 e).symm

/-- **A sum of copies is the multiple if all multiples up to it are numbers.** -/
theorem toRat_copies (finite : x.isFinite) (multiples : ∀ j : Nat, j ≤ k + 1 →
    ∃ y : Binary64, y.isFinite ∧ y.toRat = j * x.toRat) :
    (copies x k).isFinite ∧ (copies x k).toRat = (k + 1) * x.toRat := by
  induction k with
  | zero => exact ⟨finite, by rw [copies_zero]; push_cast; ring⟩
  | succ k ih =>
    obtain ⟨before, sum⟩ := ih fun j le => multiples j (by omega)
    obtain ⟨y, isFinite, value⟩ := multiples (k + 2) le_rfl
    have rounded := isNearestTo_add before finite
    have next : (copies x k).toRat + x.toRat = y.toRat := by
      rw [sum, value]
      push_cast
      ring
    rw [next] at rounded
    obtain ⟨finite', kept⟩ := rounded.toRat_eq isFinite
    rw [copies_succ]
    refine ⟨finite', kept.trans ?_⟩
    rw [value]
    push_cast
    ring

/-! ## Signs -/

namespace Binary64

theorem isNegative_ofFraction (negative : Bool) (num den : Nat) :
    (ofFraction negative num den).isNegative = negative := by
  rw [ofFraction]
  split <;> rfl

theorem eq_of_toRat_eq (finite : x.isFinite) (finite' : y.isFinite) (same : x.toRat = y.toRat)
    (sign : x.isNegative = y.isNegative) : x = y := by
  obtain ⟨s, m, hm, rfl⟩ := exists_units_of_isFinite finite
  obtain ⟨t, n, hn, rfl⟩ := exists_units_of_isFinite finite'
  obtain rfl : s = t := sign
  have units := toRat_finite_inj.1 same
  obtain rfl : m = n := by cases s <;> simpa [signed] using units
  rfl

theorem toRat_eq_of_eqv (finite : y.isFinite) (equal : x.eqv y) :
    x.isFinite ∧ x.toRat = y.toRat := by
  obtain ⟨t, n, hn, rfl⟩ := exists_units_of_isFinite finite
  cases x with
  | nan => cases equal
  | infinite s =>
    have rank : signed s overflowUnits = signed t n := of_decide_eq_true equal
    have below := hn.2
    cases s <;> cases t <;> simp only [signed, if_true, if_false, Bool.false_eq_true] at rank <;> omega
  | finite s m hm => exact ⟨rfl, toRat_finite_inj.2 (of_decide_eq_true equal)⟩

theorem isNegative_add (finite : x.isFinite) (finite' : y.isFinite)
    (same : y.isNegative = x.isNegative) : (x + y).isNegative = x.isNegative := by
  obtain ⟨s, m, hm, rfl⟩ := exists_units_of_isFinite finite
  obtain ⟨t, n, hn, rfl⟩ := exists_units_of_isFinite finite'
  obtain rfl : t = s := same
  rw [finite_add_finite]
  split
  · exact Bool.and_self t
  next nonzero =>
    rw [isNegative_ofFraction]
    cases t with
    | false => exact decide_eq_false (by simp only [signed, Bool.false_eq_true, if_false]; omega)
    | true => exact decide_eq_true (by simp only [signed, if_true] at nonzero ⊢; omega)

end Binary64

theorem isNegative_copies (finite : (copies x k).isFinite) :
    (copies x k).isNegative = x.isNegative := by
  induction k with
  | zero => rfl
  | succ k ih =>
    rw [copies_succ] at finite ⊢
    obtain ⟨before, term⟩ := isFinite_of_add finite
    rw [isNegative_add before term (ih before).symm, ih before]

/-! ## Counts -/

namespace Binary64

theorem abs_toRat_ofNat_sub_le {n : Nat} (finite : (ofNat n).isFinite) :
    |(ofNat n).toRat - n| ≤ unitRoundoff * n := by
  have error := @abs_toRat_ofFraction_sub false (n * unitsPerOne) 1 finite
  have near := abs_roundUnits_one_sub_le (n * unitsPerOne)
  rw [Nat.cast_one, div_one, Nat.cast_mul] at error
  rw [Nat.cast_mul] at near
  have value : withSign false ((n * unitsPerOne : ℚ) / unitsPerOne) = n :=
    mul_div_cancel_right₀ _ unitsPerOne_pos.ne'
  rw [value] at error
  calc |(ofNat n).toRat - n|
      = |(roundUnits (n * unitsPerOne) 1 : ℚ) - n * unitsPerOne| / unitsPerOne := error
    _ ≤ n * unitsPerOne / 2 ^ 53 / unitsPerOne := div_le_div_of_nonneg_right near unitsPerOne_pos.le
    _ = unitRoundoff * n := by
        rw [div_right_comm, mul_div_cancel_right₀ _ unitsPerOne_pos.ne', unitRoundoff,
          one_div_mul_eq_div]

end Binary64

/-! ## Means -/

theorem mean_replicate (x : Binary64) (k : Nat) :
    mean (Array.replicate (k + 1) x) = copies x k / ofNat (k + 1) := by
  rw [mean, sum_replicate, Array.size_replicate]

section Mean

variable (small : k + 1 ≤ 2 ^ (64 : Nat))
include small

theorem isBetween_ofNat_succ : IsBetween 1 (2 ^ (64 : Nat)) (ofNat (k + 1)) :=
  isBetween_ofNat (by decide) (by omega) small

theorem isPositive_ofNat_succ : (ofNat (k + 1)).IsPositive :=
  (isBetween_ofNat_succ small).isPositive Nat.one_pos

theorem isFinite_of_mean (finite : (copies x k / ofNat (k + 1)).isFinite) :
    (copies x k).isFinite := by
  obtain ⟨n, hn, e, -⟩ := (isPositive_ofNat_succ small).exists_units
  rw [e] at finite
  generalize copies x k = sum at *
  cases sum with
  | nan => cases finite
  | infinite s => cases finite
  | finite s m hm => rfl

theorem isNegative_div_ofNat (finite : x.isFinite) :
    (x / ofNat (k + 1)).isNegative = x.isNegative := by
  obtain ⟨n, hn, e, nonzero⟩ := (isPositive_ofNat_succ small).exists_units
  obtain ⟨s, m, hm, rfl⟩ := exists_units_of_isFinite finite
  rw [e, finite_div_finite nonzero, isNegative_ofFraction]
  exact Bool.xor_false s

theorem one_le_toRat_ofNat : 1 ≤ (ofNat (k + 1)).toRat := by
  have bounds := (isBetween_ofNat_succ small).toRat_bounds
  rw [Nat.cast_one] at bounds
  exact bounds.1

theorem le_toRat_ofNat : 63 / 64 * (k + 1) ≤ (ofNat (k + 1)).toRat := by
  have near := abs_toRat_ofNat_sub_le (isPositive_ofNat_succ small).isFinite
  push_cast at near
  have := mul_le_mul_of_nonneg_right unitRoundoff_le (by positivity : (0 : ℚ) ≤ k + 1)
  linarith [(abs_le.1 near).1]

/-- The errors of a sum of copies and of its count, in copies. -/
theorem count_error_le (positive : 1 ≤ k) :
    unitRoundoff * (k * (k + 1)) + |(ofNat (k + 1)).toRat - (k + 1)| ≤
      2 * unitRoundoff * k * (ofNat (k + 1)).toRat := by
  have u := unitRoundoff_pos
  have one : (1 : ℚ) ≤ k := by exact_mod_cast positive
  rcases Nat.lt_or_ge (2 ^ (53 : Nat)) (k + 1) with large | short
  · have near := abs_toRat_ofNat_sub_le (isPositive_ofNat_succ small).isFinite
    have two : (2 : ℚ) ≤ k := by exact_mod_cast (by omega : 2 ≤ k)
    push_cast at near
    have scaled : 2 * unitRoundoff * k * (63 / 64 * (k + 1)) ≤
        2 * unitRoundoff * k * (ofNat (k + 1)).toRat :=
      mul_le_mul_of_nonneg_left (le_toRat_ofNat small) (by positivity)
    have size : 0 ≤ unitRoundoff * (k + 1) := by positivity
    have enough := mul_le_mul_of_nonneg_left two size
    linarith
  · have exact_count := (isInteger_ofNat short).toRat_eq
    push_cast at exact_count
    have nonneg : 0 ≤ unitRoundoff * (k * (k + 1)) := by positivity
    rw [exact_count, sub_self, abs_zero]
    linarith

theorem near_copies_div (positive : 1 ≤ k) (finite : (copies x k).isFinite) :
    |(copies x k).toRat / (ofNat (k + 1)).toRat - x.toRat| ≤
      2 * unitRoundoff * k * |x.toRat| := by
  have count := (isPositive_ofNat_succ small).pos
  have total := mul_le_mul_of_nonneg_right (count_error_le small positive) (abs_nonneg x.toRat)
  obtain ⟨-, summed⟩ := near_copies finite
  generalize (ofNat (k + 1)).toRat = n at *
  generalize (copies x k).toRat = sum at *
  have quotient : sum / n - x.toRat = (sum - n * x.toRat) / n := by
    rw [sub_div, mul_div_cancel_left₀ _ count.ne']
  have split : sum - n * x.toRat = sum - (k + 1) * x.toRat - (n - (k + 1)) * x.toRat := by ring
  rw [quotient, abs_div, abs_of_pos count, div_le_iff₀ count, split]
  calc |sum - (k + 1) * x.toRat - (n - (k + 1)) * x.toRat|
      ≤ |sum - (k + 1) * x.toRat| + |(n - (k + 1)) * x.toRat| := abs_sub _ _
    _ ≤ unitRoundoff * (k * (k + 1)) * |x.toRat| + |n - (k + 1)| * |x.toRat| := by
        rw [abs_mul]
        exact add_le_add_left summed _
    _ ≤ 2 * unitRoundoff * k * |x.toRat| * n := by linarith

/-- **How far the mean of copies is from the number.** It is nearest to the quotient, so that it is
as near to the number as that at most twice. -/
theorem mean_copies_near (positive : 1 ≤ k) (finite : (copies x k).isFinite) :
    (copies x k / ofNat (k + 1)).isFinite ∧
      |(copies x k / ofNat (k + 1)).toRat - x.toRat| ≤ k * |x.toRat| / 2 ^ 51 := by
  have count := isPositive_ofNat_succ small
  have rounded := isNearestTo_div finite count.isFinite count.pos.ne'
  have below : |(copies x k).toRat / (ofNat (k + 1)).toRat| ≤ |(copies x k).toRat| := by
    rw [abs_div, abs_of_pos count.pos]
    exact div_le_self (abs_nonneg _) (one_le_toRat_ofNat small)
  have isFinite := rounded.isFinite (below.trans_lt (abs_toRat_lt finite))
  have near := rounded.abs_sub_le isFinite (isFinite_of_copies finite)
  have before := near_copies_div small positive finite
  refine ⟨isFinite, ?_⟩
  generalize (copies x k).toRat / (ofNat (k + 1)).toRat = quotient at *
  have triangle := abs_sub_le (copies x k / ofNat (k + 1)).toRat quotient x.toRat
  have bound : (k : ℚ) * |x.toRat| / 2 ^ 51 = 2 * (2 * unitRoundoff * k * |x.toRat|) := by
    rw [unitRoundoff]
    ring
  rw [abs_sub_comm x.toRat] at near
  linarith

/-- **The mean is the number itself if it compares equal to it**, also where that is a zero. -/
theorem mean_copies_eq (finite : x.isFinite) (equal : (copies x k / ofNat (k + 1)).eqv x) :
    copies x k / ofNat (k + 1) = x := by
  obtain ⟨isFinite, same⟩ := toRat_eq_of_eqv finite equal
  have sum := isFinite_of_mean small isFinite
  refine eq_of_toRat_eq isFinite finite same ?_
  rw [isNegative_div_ofNat small sum, isNegative_copies sum]

omit small in
theorem mean_copies_eqv (finite : x.isFinite) (short : k + 1 ≤ 2 ^ (53 : Nat))
    (multiples : ∀ j : Nat, j ≤ k + 1 → ∃ y : Binary64, y.isFinite ∧ y.toRat = j * x.toRat) :
    (copies x k / ofNat (k + 1)).eqv x := by
  obtain ⟨isFinite, sum⟩ := toRat_copies finite multiples
  have count := isInteger_ofNat short
  have positive : ((k + 1 : Nat) : ℚ) ≠ 0 := Nat.cast_ne_zero.2 k.succ_ne_zero
  have value : (ofNat (k + 1)).toRat = (k + 1 : Nat) := count.toRat_eq
  have rounded := isNearestTo_div isFinite count.isFinite (value ▸ positive)
  rw [sum, value, ← Nat.cast_succ, mul_div_cancel_left₀ _ positive] at rounded
  obtain ⟨finite', kept⟩ := rounded.toRat_eq finite
  exact eqv_of_toRat_eq finite' finite kept

end Mean

end ColumnStats
