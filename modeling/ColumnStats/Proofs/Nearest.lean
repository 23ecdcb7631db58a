import ColumnStats.Binary64.Arith
import ColumnStats.Proofs.Distances
import Mathlib.Algebra.Order.Field.Rat
import Mathlib.Algebra.Order.AbsoluteValue.Basic
import Mathlib.Tactic.FieldSimp
import Mathlib.Tactic.Linarith
import Mathlib.Tactic.NormNum
import Mathlib.Tactic.Positivity
import Mathlib.Tactic.Ring

/-!
# Rounding to the nearest

What rounding does, told apart from how it is done.

* `isNearest_nearestEven`: **quotients are rounded to the nearest whole number**;
  `nearestEven_eq_of_abs_le`: a quotient no farther from it has the same result;
* `IsNearestCount`: the same for counts of units with 53 significant bits;
  `IsNearestCount.unique`: there is only one such count;
* `roundUnits_eq_iff`: **a quotient is rounded to that count**;
* `IsNearestCount.eq_zero_iff`, `IsNearestCount.two_pow_le_iff`: where rounding gives zero, and
  where it reaches a power of two;
* `IsRounded`: the number that a rational is rounded to, with both thresholds;
* `isRounded_ofFraction`: **fractions of units are rounded to the nearest number**.
-/

namespace ColumnStats

-- powers are those of the core library
attribute [local instance (2000)] instPowNat

/-! ## Whole numbers -/

theorem abs_nearestEven_sub {den : Nat} (positive : 0 < den) (num : Nat) :
    |(nearestEven num den : ℚ) - num / den| < 1 / 2 ∨
      |(nearestEven num den : ℚ) - num / den| = 1 / 2 ∧ Even (nearestEven num den) := by
  have hd : (0 : ℚ) < den := by exact_mod_cast positive
  have split : (num : ℚ) / den = (num / den : Nat) + (num % den : Nat) / den := by
    rw [eq_comm, ← mul_right_inj' hd.ne', mul_add, mul_div_cancel₀ _ hd.ne',
      mul_div_cancel₀ _ hd.ne']
    exact_mod_cast Nat.div_add_mod num den
  rw [split, nearestEven]
  have twice : 2 * ((num % den : Nat) / den : ℚ) * den = 2 * (num % den : Nat) := by
    field_simp
  have rest : (0 : ℚ) ≤ (num % den : Nat) / den ∧ ((num % den : Nat) : ℚ) / den < 1 := by
    refine ⟨by positivity, (div_lt_one hd).2 ?_⟩
    exact_mod_cast Nat.mod_lt num positive
  generalize ((num % den : Nat) : ℚ) / den = part at twice rest
  split
  next low =>
    -- the quotient is rounded down
    have low : 2 * part < 1 := by
      have low : (2 * (num % den : Nat) : ℚ) < den := by exact_mod_cast low
      rw [← twice] at low
      exact lt_of_mul_lt_mul_right (by rwa [one_mul]) hd.le
    rw [sub_add_cancel_left, abs_neg, abs_of_nonneg rest.1]
    exact Or.inl (by linarith)
  next notLow =>
    split
    next high =>
      -- the quotient is rounded up
      have high : 1 < 2 * part := by
        have high : (den : ℚ) < 2 * (num % den : Nat) := by exact_mod_cast high
        rw [← twice] at high
        exact lt_of_mul_lt_mul_right (by rwa [one_mul]) hd.le
      rw [Nat.cast_add, Nat.cast_one, add_sub_add_left_eq_sub, abs_of_pos (by linarith)]
      exact Or.inl (by linarith)
    next notHigh =>
      have half : part = 1 / 2 := by
        have half : 2 * (num % den) = den := by omega
        have half : (2 * (num % den : Nat) : ℚ) = den := by exact_mod_cast half
        rw [← twice] at half
        have := mul_right_cancel₀ hd.ne' (half.trans (one_mul _).symm)
        linarith
      right
      rw [half, Nat.cast_add, add_sub_add_left_eq_sub]
      rcases Nat.mod_two_eq_zero_or_one (num / den) with even | odd
      · rw [even]
        refine ⟨by norm_num, ?_⟩
        rwa [Nat.add_zero, Nat.even_iff]
      · rw [odd]
        refine ⟨by norm_num, ?_⟩
        rw [Nat.even_add_one, Nat.not_even_iff]
        exact odd

theorem abs_nearestEven_sub_le_half {den : Nat} (positive : 0 < den) (num : Nat) :
    |(nearestEven num den : ℚ) - num / den| ≤ 1 / 2 := by
  rcases abs_nearestEven_sub positive num with near | ⟨half, -⟩
  · exact near.le
  · exact half.le

theorem one_le_abs_sub {m n : Nat} (other : m ≠ n) : (1 : ℚ) ≤ |(m : ℚ) - n| := by
  have apart : 1 ≤ |(m : ℤ) - n| := Int.one_le_abs (sub_ne_zero.2 (by exact_mod_cast other))
  exact_mod_cast apart

/-- **Quotients are rounded to the nearest whole number**, and halfway to the even one. -/
theorem isNearest_nearestEven {den : Nat} (positive : 0 < den) (num : Nat) :
    IsNearest (Nat.cast : Nat → ℚ) (fun _ => True) (num / den) (nearestEven num den)
      (Even (nearestEven num den)) := by
  intro n _ other
  have apart := one_le_abs_sub (fun same => other (congrArg Nat.cast same))
  have triangle := abs_sub_le (n : ℚ) (num / den) (nearestEven num den)
  rw [abs_sub_comm ((num : ℚ) / den)] at triangle
  rcases abs_nearestEven_sub positive num with near | ⟨half, even⟩
  · exact Or.inl (by linarith)
  · rcases lt_or_eq_of_le (by linarith : (1 / 2 : ℚ) ≤ |(n : ℚ) - num / den|) with far | tie
    · exact Or.inl (by linarith)
    · exact Or.inr ⟨by rw [half, tie], even⟩

/-- A quotient that is no farther from the result than the rounded one has the same result. -/
theorem nearestEven_eq_of_abs_le {num den num' den' : Nat} (positive : 0 < den)
    (positive' : 0 < den')
    (close : |(nearestEven num den : ℚ) - num' / den'| ≤ |(nearestEven num den : ℚ) - num / den|) :
    nearestEven num' den' = nearestEven num den := by
  by_contra other
  have apart := one_le_abs_sub (Ne.symm other)
  have triangle := abs_sub_le (nearestEven num den : ℚ) (num' / den') (nearestEven num' den')
  rw [abs_sub_comm ((num' : ℚ) / den')] at triangle
  -- both quotients lie halfway between the two results, which are then both even
  have half' := abs_nearestEven_sub_le_half positive' num'
  rcases abs_nearestEven_sub positive num with near | ⟨half, even⟩
  · linarith
  · have even' : Even (nearestEven num' den') := by
      rcases abs_nearestEven_sub positive' num' with near | ⟨-, even'⟩
      · linarith
      · exact even'
    have next : |(nearestEven num den : ℤ) - nearestEven num' den'| = 1 := by
      have next : |(nearestEven num den : ℚ) - nearestEven num' den'| = 1 :=
        le_antisymm (by linarith) apart
      exact_mod_cast next
    have even : Even ((nearestEven num den : ℤ) - nearestEven num' den') := by
      rw [← Int.even_coe_nat] at even even'
      exact even.sub even'
    rw [← even_abs, next] at even
    exact absurd even (by decide)

/-! ## Counts of units -/

/-- The bits that are kept of a count. -/
def significand (n : Nat) : Nat := n / 2 ^ ulpExponent n

theorem ulpExponent_eq {n e : Nat} (short : n < 2 ^ (53 : Nat) * 2 ^ e)
    (full : e = 0 ∨ 2 ^ (52 : Nat) * 2 ^ e ≤ n) : ulpExponent n = e := by
  rw [← Nat.pow_add] at short full
  rcases Nat.eq_zero_or_pos n with rfl | positive
  · rcases full with rfl | full
    · rfl
    · exact absurd full (Nat.not_le.2 (Nat.two_pow_pos _))
  have upper := (Nat.log2_lt positive.ne').2 short
  rcases full with rfl | full
  · rw [ulpExponent]
    omega
  · have lower := (Nat.le_log2 positive.ne').2 full
    rw [ulpExponent]
    omega

theorem ulpExponent_eq_zero_or (n : Nat) :
    ulpExponent n = 0 ∨ 2 ^ (52 : Nat) * 2 ^ ulpExponent n ≤ n := by
  by_cases small : n.log2 ≤ 52
  · exact Or.inl (Nat.sub_eq_zero_of_le small)
  · have positive : n ≠ 0 := by
      rintro rfl
      exact small (by decide)
    right
    rw [← Nat.pow_add, ulpExponent, Nat.add_sub_of_le (by omega)]
    exact Nat.log2_self_le positive

theorem significand_eq {m e : Nat} (short : m < 2 ^ (53 : Nat))
    (full : e = 0 ∨ 2 ^ (52 : Nat) ≤ m) : significand (m * 2 ^ e) = m := by
  have exponent : ulpExponent (m * 2 ^ e) = e :=
    ulpExponent_eq ((Nat.mul_lt_mul_right (Nat.two_pow_pos e)).2 short)
      (full.imp_right (Nat.mul_le_mul_right _))
  rw [significand, exponent, Nat.mul_div_cancel _ (Nat.two_pow_pos e)]

theorem even_significand {m e : Nat} (even : Even m) (short : m ≤ 2 ^ (53 : Nat))
    (full : e = 0 ∨ 2 ^ (52 : Nat) ≤ m) : Even (significand (m * 2 ^ e)) := by
  rcases Nat.lt_or_eq_of_le short with short | rfl
  · rwa [significand_eq short full]
  · -- one more bit is dropped
    have next : 2 ^ (53 : Nat) * 2 ^ e = 2 ^ (52 : Nat) * 2 ^ (e + 1) := by
      rw [← Nat.pow_add, ← Nat.pow_add]
      congr 1
      omega
    rw [next, significand_eq (by decide) (Or.inr (Nat.le_refl _))]
    decide

/-- The count is the nearest to a quotient of those with 53 significant bits, and even in a tie. -/
structure IsNearestCount (quotient : ℚ) (units : Nat) : Prop where
  fits : 2 ^ ulpExponent units ∣ units
  nearest : IsNearest (Nat.cast : Nat → ℚ) (fun n => 2 ^ ulpExponent n ∣ n) quotient units
    (Even (significand units))

/-- **Quotients are rounded to the nearest count.** -/
theorem isNearestCount_roundUnits {den : Nat} (positive : 0 < den) (num : Nat) :
    IsNearestCount (num / den) (roundUnits num den) := by
  refine ⟨two_pow_ulpExponent_dvd_roundUnits num den, fun n fits other => ?_⟩
  have full := ulpExponent_eq_zero_or (num / den)
  have short := lt_two_pow_ulpExponent (num / den)
  rw [roundUnits] at other ⊢
  generalize ulpExponent (num / den) = e at full short other ⊢
  have positive' : 0 < den * 2 ^ e := Nat.mul_pos positive (Nat.two_pow_pos e)
  have unit : (0 : ℚ) < 2 ^ e := by positivity
  have bound : nearestEven num (den * 2 ^ e) ≤ 2 ^ (53 : Nat) := by
    refine (nearestEven_le_div_succ _ _).trans ?_
    rw [← Nat.div_div_eq_div_mul, Nat.succ_le_iff, Nat.div_lt_iff_lt_mul (Nat.two_pow_pos e)]
    exact short
  -- of the multiples of the spacing, the rounded one is nearest
  have nearest := (isNearest_nearestEven positive' num).mul unit
  have target : (num / (den * 2 ^ e : Nat) * 2 ^ e : ℚ) = num / den := by
    push_cast
    field_simp
  rw [target] at nearest
  push_cast at other ⊢
  rcases Nat.lt_or_ge (ulpExponent n) e with fine | coarse
  · -- the other count is below the power of two that begins this spacing
    left
    have start : 2 ^ (52 : Nat) * 2 ^ e ≤ num / den := full.resolve_left (by omega)
    have below : n < 2 ^ (52 : Nat) * 2 ^ e := by
      refine (lt_two_pow_ulpExponent n).trans_le ?_
      rw [← Nat.pow_add, ← Nat.pow_add]
      exact Nat.pow_le_pow_right (by decide) (by omega)
    have first : |(nearestEven num (den * 2 ^ e) : ℚ) * 2 ^ e - num / den| ≤
        |((2 ^ (52 : Nat) * 2 ^ e : Nat) : ℚ) - num / den| := by
      have first := nearest.abs_sub_le (i := 2 ^ (52 : Nat)) trivial
      push_cast at first ⊢
      exact first
    generalize 2 ^ (52 : Nat) * 2 ^ e = power at start below first
    have start : (power : ℚ) ≤ num / den := by
      rw [le_div_iff₀ (by exact_mod_cast positive)]
      exact_mod_cast (Nat.le_div_iff_mul_le positive).1 start
    have below : (n : ℚ) < power := Nat.cast_lt.2 below
    calc |(nearestEven num (den * 2 ^ e) : ℚ) * 2 ^ e - num / den|
        ≤ |(power : ℚ) - num / den| := first
      _ = num / den - power := by rw [abs_sub_comm, abs_of_nonneg (by linarith)]
      _ < num / den - n := by linarith
      _ = |(n : ℚ) - num / den| := by rw [abs_sub_comm, abs_of_pos (by linarith)]
  · -- the other count is a multiple of this spacing
    obtain ⟨k, rfl⟩ : 2 ^ e ∣ n := (Nat.pow_dvd_pow 2 coarse).trans fits
    rw [Nat.mul_comm (2 ^ e) k] at other ⊢
    push_cast at other ⊢
    have enough : e = 0 ∨ 2 ^ (52 : Nat) ≤ nearestEven num (den * 2 ^ e) := by
      refine full.imp_right fun full => le_trans ?_ (div_le_nearestEven _ _)
      rw [← Nat.div_div_eq_div_mul]
      exact (Nat.le_div_iff_mul_le (Nat.two_pow_pos e)).2 full
    exact nearest.imp (fun even => even_significand even bound enough) k trivial other

/-! ## Thresholds -/

namespace IsNearestCount

variable {quotient : ℚ} {units : Nat}

theorem eq_zero_iff (h : IsNearestCount quotient units) : units = 0 ↔ quotient ≤ 1 / 2 := by
  constructor
  · rintro rfl
    have near : |((0 : Nat) : ℚ) - quotient| ≤ |((1 : Nat) : ℚ) - quotient| :=
      h.nearest.abs_sub_le (by decide)
    have middle := two_mul_le_add near (by norm_num)
    norm_num at middle
    linarith
  · intro small
    by_contra positive
    have one : (1 : ℚ) ≤ units := by exact_mod_cast Nat.one_le_iff_ne_zero.2 positive
    have near : |(units : ℚ) - quotient| ≤ |((0 : Nat) : ℚ) - quotient| :=
      h.nearest.abs_sub_le (Nat.dvd_zero _)
    have middle := add_le_two_mul near (by exact_mod_cast Nat.pos_of_ne_zero positive)
    rw [Nat.cast_zero, add_zero] at middle
    -- halfway between zero and one unit, whose significand is odd
    have last : (units : ℚ) = 1 := by linarith
    have half : quotient = 1 / 2 := by linarith
    rw [Nat.cast_eq_one.1 last, half] at h
    have even := h.nearest.even_of_le (i := 0) (Nat.dvd_zero _) (by norm_num) (by norm_num)
    exact absurd even (by decide)

end IsNearestCount

/-- Above a count with 53 significant bits, the next such count is one spacing away. -/
theorem add_spacing_le {n n' : Nat} (fits : 2 ^ ulpExponent n ∣ n) (fits' : 2 ^ ulpExponent n' ∣ n')
    (above : n < n') : n + 2 ^ ulpExponent n ≤ n' := by
  have coarse : ulpExponent n ≤ ulpExponent n' := by
    by_contra fine
    have start := (ulpExponent_eq_zero_or n).resolve_left (by omega)
    have short : n' < 2 ^ (52 : Nat) * 2 ^ ulpExponent n := by
      refine (lt_two_pow_ulpExponent n').trans_le ?_
      rw [← Nat.pow_add, ← Nat.pow_add]
      exact Nat.pow_le_pow_right (by decide) (by omega)
    omega
  have apart : 2 ^ ulpExponent n ∣ n' - n :=
    Nat.dvd_sub ((Nat.pow_dvd_pow 2 coarse).trans fits') fits
  have := Nat.le_of_dvd (by omega) apart
  omega

/-- After a count with an even significand comes one with an odd significand. -/
theorem significand_add_spacing {n : Nat} (fits : 2 ^ ulpExponent n ∣ n)
    (even : Even (significand n)) :
    2 ^ ulpExponent (n + 2 ^ ulpExponent n) ∣ n + 2 ^ ulpExponent n ∧
      ¬ Even (significand (n + 2 ^ ulpExponent n)) := by
  have short := lt_two_pow_ulpExponent n
  have full := ulpExponent_eq_zero_or n
  obtain ⟨m, hm⟩ := fits
  have next : n + 2 ^ ulpExponent n = (m + 1) * 2 ^ ulpExponent n := by
    rw [Nat.succ_mul, Nat.mul_comm m, ← hm]
  rw [significand] at even
  rw [next]
  generalize ulpExponent n = e at *
  subst hm
  rw [Nat.mul_div_cancel_left _ (Nat.two_pow_pos e)] at even
  rw [Nat.mul_comm (2 ^ e)] at short full
  have short := Nat.lt_of_mul_lt_mul_right short
  have full := full.imp_right fun h => Nat.le_of_mul_le_mul_right h (Nat.two_pow_pos e)
  have last : m + 1 ≠ 2 ^ (53 : Nat) := by
    intro h
    have odd := even.add_one
    rw [h] at odd
    exact absurd odd (by decide)
  refine ⟨two_pow_ulpExponent_dvd short, ?_⟩
  rw [significand_eq (by omega) (full.imp_right (Nat.le_succ_of_le ·)), Nat.not_even_iff_odd]
  exact even.add_one

theorem exists_count_between {n n' : Nat} (fits : 2 ^ ulpExponent n ∣ n)
    (fits' : 2 ^ ulpExponent n' ∣ n') (even : Even (significand n)) (even' : Even (significand n'))
    (above : n < n') : ∃ between, 2 ^ ulpExponent between ∣ between ∧ n < between ∧
      between < n' := by
  obtain ⟨nextFits, odd⟩ := significand_add_spacing fits even
  have reached := add_spacing_le fits fits' above
  have beyond : n < n + 2 ^ ulpExponent n := Nat.lt_add_of_pos_right (Nat.two_pow_pos _)
  refine ⟨_, nextFits, beyond, Nat.lt_of_le_of_ne reached fun same => odd ?_⟩
  rwa [same]

theorem IsNearestCount.not_lt {quotient : ℚ} {units units' : Nat}
    (h : IsNearestCount quotient units) (h' : IsNearestCount quotient units') :
    ¬ units < units' := by
  intro above
  have below : (units : ℚ) < units' := Nat.cast_lt.2 above
  have near := h.nearest.abs_sub_le h'.fits
  have near' := h'.nearest.abs_sub_le h.fits
  -- both are as near, so that both significands are even
  have even := h.nearest.even_of_le h'.fits below.ne' near'
  have even' := h'.nearest.even_of_le h.fits below.ne near
  -- so that a count between them would be nearer
  obtain ⟨between, fits, lower, upper⟩ := exists_count_between h.fits h'.fits even even' above
  have lower : (units : ℚ) < between := Nat.cast_lt.2 lower
  have middle := two_mul_le_add near below
  have beyond := add_le_two_mul (h'.nearest.abs_sub_le fits) (Nat.cast_lt.2 upper)
  linarith

theorem IsNearestCount.unique {quotient : ℚ} {units units' : Nat}
    (h : IsNearestCount quotient units) (h' : IsNearestCount quotient units') : units = units' :=
  Nat.le_antisymm (Nat.not_lt.1 (h'.not_lt h)) (Nat.not_lt.1 (h.not_lt h'))

theorem roundUnits_eq_iff {num den units : Nat} (positive : 0 < den) :
    roundUnits num den = units ↔ IsNearestCount (num / den) units := by
  constructor
  · rintro rfl
    exact isNearestCount_roundUnits positive num
  · exact (isNearestCount_roundUnits positive num).unique

theorem add_two_pow_le {n k : Nat} (fits : 2 ^ ulpExponent n ∣ n)
    (below : n < 2 ^ (53 : Nat) * 2 ^ k) : n + 2 ^ k ≤ 2 ^ (53 : Nat) * 2 ^ k := by
  rcases Nat.lt_or_ge (ulpExponent n) k with fine | coarse
  · have short : n < 2 ^ (52 : Nat) * 2 ^ k := by
      refine (lt_two_pow_ulpExponent n).trans_le ?_
      rw [← Nat.pow_add, ← Nat.pow_add]
      exact Nat.pow_le_pow_right (by decide) (by omega)
    omega
  · obtain ⟨m, rfl⟩ : 2 ^ k ∣ n := (Nat.pow_dvd_pow 2 coarse).trans fits
    rw [Nat.mul_comm (2 ^ k)] at below ⊢
    have below := Nat.lt_of_mul_lt_mul_right below
    rw [← Nat.succ_mul]
    exact Nat.mul_le_mul_right _ below

theorem IsNearestCount.two_pow_le_iff {quotient : ℚ} {units : Nat}
    (h : IsNearestCount quotient units) (k : Nat) :
    2 ^ (53 : Nat) * 2 ^ k ≤ units ↔
      ((2 ^ (53 : Nat) * 2 ^ k : Nat) : ℚ) - (2 ^ k : Nat) / 2 ≤ quotient := by
  have topFits : 2 ^ ulpExponent (2 ^ (53 : Nat) * 2 ^ k) ∣ 2 ^ (53 : Nat) * 2 ^ k :=
    two_pow_ulpExponent_dvd (Nat.le_refl _)
  have lastFits : 2 ^ ulpExponent ((2 ^ (53 : Nat) - 1) * 2 ^ k) ∣ (2 ^ (53 : Nat) - 1) * 2 ^ k :=
    two_pow_ulpExponent_dvd (Nat.sub_le _ _)
  have odd : ¬ Even (significand ((2 ^ (53 : Nat) - 1) * 2 ^ k)) := by
    rw [significand_eq (by decide) (Or.inr (by decide))]
    decide
  have step : (2 ^ (53 : Nat) - 1) * 2 ^ k + 2 ^ k = 2 ^ (53 : Nat) * 2 ^ k := by
    rw [← Nat.succ_mul]
  have below := @add_two_pow_le units k h.fits
  have positive : (0 : ℚ) < (2 ^ k : Nat) := by exact_mod_cast Nat.two_pow_pos k
  generalize (2 ^ (53 : Nat) - 1) * 2 ^ k = last at lastFits odd step
  generalize 2 ^ (53 : Nat) * 2 ^ k = top at topFits step below ⊢
  generalize 2 ^ k = spacing at step below positive ⊢
  have step : (last : ℚ) + spacing = top := by exact_mod_cast step
  constructor
  · intro reached
    have reached : (top : ℚ) ≤ units := by exact_mod_cast reached
    have middle := add_le_two_mul (h.nearest.abs_sub_le lastFits) (by linarith)
    linarith
  · intro reached
    by_contra short
    have before : (units : ℚ) + spacing ≤ top := by exact_mod_cast below (by omega)
    have short : (units : ℚ) < top := by linarith
    have middle := two_mul_le_add (h.nearest.abs_sub_le topFits) short
    -- halfway between the last count and the power of two
    have same : (units : ℚ) = last := by linarith
    have even := h.nearest.even_of_le topFits short.ne' <| le_of_not_gt fun strict => by
      have := two_mul_lt_add strict short
      linarith
    rw [Nat.cast_inj.1 same] at even
    exact odd even

/-! ## Numbers -/

/-- The rational number with a sign and a magnitude. -/
def withSign (negative : Bool) (magnitude : ℚ) : ℚ := if negative then -magnitude else magnitude

/-- A finite number as a rational; the others have none and are given zero. -/
def Binary64.toRat : Binary64 → ℚ
  | finite negative units _ => withSign negative (units / unitsPerOne)
  | _ => 0

/-- The number that a rational is rounded to: infinite from halfway between the last number and
`2 ^ 1024` on, zero up to half of the first one, both with the sign, and the nearest one else. -/
structure IsRounded (negative : Bool) (magnitude : ℚ) (x : Binary64) : Prop where
  overflow : x = .infinite negative ↔ 2 ^ 1024 - 2 ^ 970 ≤ magnitude
  underflow : x = .zero negative ↔ magnitude ≤ 1 / 2 ^ 1075
  nearest : magnitude < 2 ^ 1024 - 2 ^ 970 → ∃ units representable,
    x = .finite negative units representable ∧
    IsNearest Binary64.toRat (fun y => y.isFinite) (withSign negative magnitude) x.toRat
      (Even (significand units))

theorem IsRounded.abs_toRat_sub_le {negative : Bool} {magnitude : ℚ} {x : Binary64}
    (h : IsRounded negative magnitude x) (small : magnitude < 2 ^ 1024 - 2 ^ 970) {y : Binary64}
    (finite : y.isFinite) :
    |x.toRat - withSign negative magnitude| ≤ |y.toRat - withSign negative magnitude| := by
  obtain ⟨units, representable, -, nearest⟩ := h.nearest small
  exact nearest.abs_sub_le finite

theorem withSign_zero (negative : Bool) : withSign negative 0 = 0 := by
  cases negative <;> simp [withSign]

theorem abs_withSign_sub (negative : Bool) (a b : ℚ) :
    |withSign negative a - withSign negative b| = |a - b| := by
  cases negative with
  | false => rfl
  | true =>
    change |-a - -b| = |a - b|
    rw [neg_sub_neg, abs_sub_comm]

theorem withSign_of_ne {negative negative' : Bool} (other : negative' ≠ negative) (a : ℚ) :
    withSign negative' a = withSign negative (-a) := by
  cases negative <;> cases negative' <;> simp [withSign] at other ⊢

theorem unitsPerOne_eq : (unitsPerOne : ℚ) = 2 ^ 1074 := by
  rw [unitsPerOne]
  generalize 1074 = exponent
  rw [Nat.cast_pow, Nat.cast_ofNat]

theorem unitsPerOne_pos : (0 : ℚ) < unitsPerOne := by
  rw [unitsPerOne_eq]
  exact pow_pos (by norm_num) _

theorem half_eq_mul_unitsPerOne : (1 / 2 : ℚ) = 1 / 2 ^ 1075 * unitsPerOne := by
  rw [unitsPerOne_eq, pow_succ, one_div_mul_eq_div,
    div_mul_cancel_left₀ (pow_ne_zero _ two_ne_zero), one_div]

theorem abs_toRat_finite (negative : Bool) {units : Nat} (representable : Representable units) :
    |(Binary64.finite negative units representable).toRat| = units / unitsPerOne := by
  have nonneg : (0 : ℚ) ≤ units / unitsPerOne := div_nonneg units.cast_nonneg unitsPerOne_pos.le
  cases negative with
  | false => exact abs_of_nonneg nonneg
  | true => exact (abs_neg _).trans (abs_of_nonneg nonneg)

theorem two_pow_eq_mul {a b c : Nat} (h : a = b + c) : 2 ^ a = 2 ^ b * 2 ^ c := by
  rw [h, Nat.pow_add]

theorem overflowUnits_eq : overflowUnits = 2 ^ (53 : Nat) * 2 ^ (2045 : Nat) := by
  rw [overflowUnits]
  exact @two_pow_eq_mul 2098 53 2045 (by norm_num)

theorem overflowUnits_eq_mul : (overflowUnits : ℚ) = 2 ^ 1024 * unitsPerOne := by
  obtain ⟨e, top⟩ : ∃ e, e = 2098 := ⟨2098, rfl⟩
  have split : e = 1024 + 1074 := top
  rw [unitsPerOne_eq, ← pow_add, ← split, overflowUnits, ← top, Nat.cast_pow, Nat.cast_ofNat]

theorem Representable.div_unitsPerOne_le {units : Nat} (h : Representable units) :
    (units / unitsPerOne : ℚ) ≤ 2 ^ 1024 - 2 ^ 971 := by
  have last (k : Nat) (below : units < 2 ^ (53 : Nat) * 2 ^ k) :
      (units : ℚ) + 2 ^ k ≤ 2 ^ (53 + k) := by
    rw [pow_add]
    exact_mod_cast add_two_pow_le h.1 below
  have inUnits (a b : Nat) (e : b = a + 1074) : (2 : ℚ) ^ a * unitsPerOne = 2 ^ b := by
    rw [unitsPerOne_eq, ← pow_add, e]
  rw [div_le_iff₀ unitsPerOne_pos, sub_mul, inUnits 1024 2098 rfl, inUnits 971 2045 rfl,
    le_sub_iff_add_le]
  exact last 2045 (overflowUnits_eq ▸ h.2)

/-- Half a spacing below a power of two, in another unit. -/
theorem threshold_eq {k a b c : Nat} (top : 53 + k = a + c) (spacing : k = b + c + 1) :
    ((2 ^ (53 : Nat) * 2 ^ k : Nat) : ℚ) - (2 ^ k : Nat) / 2 = (2 ^ a - 2 ^ b) * 2 ^ c := by
  have half : ((2 ^ k : Nat) : ℚ) / 2 = 2 ^ b * 2 ^ c := by
    rw [Nat.cast_pow, Nat.cast_ofNat, spacing, pow_succ, pow_add,
      mul_div_cancel_right₀ _ (by norm_num)]
  rw [half, ← Nat.pow_add, top, Nat.cast_pow, Nat.cast_ofNat, pow_add, sub_mul]

section Fractions

variable {num den : Nat}

theorem overflowUnits_le_iff (positive : 0 < den) : overflowUnits ≤ roundUnits num den ↔
    2 ^ 1024 - 2 ^ 970 ≤ (num / den / unitsPerOne : ℚ) := by
  have threshold := @threshold_eq 2045 1024 970 1074 (by norm_num) (by norm_num)
  rw [overflowUnits_eq, (isNearestCount_roundUnits positive num).two_pow_le_iff 2045, threshold,
    le_div_iff₀ unitsPerOne_pos, unitsPerOne_eq]

theorem roundUnits_eq_zero_iff (positive : 0 < den) : roundUnits num den = 0 ↔
    (num / den / unitsPerOne : ℚ) ≤ 1 / 2 ^ 1075 := by
  rw [(isNearestCount_roundUnits positive num).eq_zero_iff, half_eq_mul_unitsPerOne,
    div_le_iff₀ unitsPerOne_pos]

theorem ofFraction_of_lt (small : roundUnits num den < overflowUnits) (negative : Bool) :
    ∃ representable, Binary64.ofFraction negative num den =
      .finite negative (roundUnits num den) representable :=
  ⟨_, dif_pos small⟩

theorem ofFraction_of_le (large : overflowUnits ≤ roundUnits num den) (negative : Bool) :
    Binary64.ofFraction negative num den = .infinite negative :=
  dif_neg (Nat.not_lt.2 large)

end Fractions

theorem Binary64.exists_toRat_eq (negative : Bool) {y : Binary64} (finite : y.isFinite) :
    ∃ a : ℚ, y.toRat = withSign negative a ∧
      (a < 0 ∨ ∃ n : Nat, 2 ^ ulpExponent n ∣ n ∧ a = n / unitsPerOne) := by
  cases y with
  | nan => exact absurd finite Bool.false_ne_true
  | infinite _ => exact absurd finite Bool.false_ne_true
  | finite negative' n hn =>
    by_cases same : negative' = negative
    · subst same
      exact ⟨_, rfl, Or.inr ⟨n, hn.1, rfl⟩⟩
    · refine ⟨_, withSign_of_ne same _, ?_⟩
      rcases Nat.eq_zero_or_pos n with rfl | positive
      · exact Or.inr ⟨0, Nat.dvd_zero _, by rw [Nat.cast_zero, zero_div, neg_zero]⟩
      · exact Or.inl (neg_lt_zero.2 (div_pos (Nat.cast_pos.2 positive) unitsPerOne_pos))

theorem IsNearestCount.isNearest_toRat {quotient : ℚ} {units : Nat}
    (h : IsNearestCount quotient units) (nonneg : 0 ≤ quotient) (negative : Bool)
    (representable : Representable units) :
    IsNearest Binary64.toRat (fun y => y.isFinite) (withSign negative (quotient / unitsPerOne))
      (Binary64.finite negative units representable).toRat (Even (significand units)) := by
  intro y finite other
  obtain ⟨a, e, sides⟩ := Binary64.exists_toRat_eq negative finite
  rw [e, Binary64.toRat] at other ⊢
  rw [abs_withSign_sub, abs_withSign_sub]
  refine (h.nearest.div unitsPerOne_pos).signed (i := 0) (div_nonneg nonneg unitsPerOne_pos.le) ?_
    (fun same => other (congrArg (withSign negative) same)) sides
  exact ⟨Nat.dvd_zero _, by rw [Nat.cast_zero, zero_div]⟩

/-- **Fractions of units are rounded to the nearest number.** -/
theorem isRounded_ofFraction (negative : Bool) (num : Nat) {den : Nat} (positive : 0 < den) :
    IsRounded negative (num / den / unitsPerOne) (.ofFraction negative num den) := by
  have nonneg : (0 : ℚ) ≤ num / den := by positivity
  have overflow := @overflowUnits_le_iff num den positive
  have underflow := @roundUnits_eq_zero_iff num den positive
  rcases Nat.lt_or_ge (roundUnits num den) overflowUnits with small | large
  · obtain ⟨representable, e⟩ := ofFraction_of_lt small negative
    rw [e]
    refine ⟨?_, ?_, fun _ => ⟨_, representable, rfl, ?_⟩⟩
    · rw [← overflow]
      simpa using small
    · rw [← underflow, Binary64.zero, Binary64.finite.injEq, and_iff_right rfl]
    · exact (isNearestCount_roundUnits positive num).isNearest_toRat nonneg negative representable
  · rw [ofFraction_of_le large]
    have positive' : roundUnits num den ≠ 0 := (overflowUnits_pos.trans_le large).ne'
    refine ⟨?_, ?_, fun below => absurd (overflow.1 large) (not_le.2 below)⟩
    · rw [← overflow]
      simpa using large
    · rw [← underflow]
      simpa [Binary64.zero] using positive'

end ColumnStats
