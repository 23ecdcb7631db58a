import ColumnStats.Proofs.Exactness
import Mathlib.Analysis.Real.Sqrt

/-!
# Rounding of roots

The root of a number is irrational as a rule. It is rounded by way of a fraction with the
denominator two, which lies between the same whole numbers.

* `twiceSqrt`: the numerator of that fraction; `twiceSqrt_lt_iff`, `lt_twiceSqrt_iff`: **it compares
  with even numbers as the exact root does**;
* `nearer_iff_of_even`: so that of two counts with an even sum, the same one is nearer to both;
* `isNearest_sqrt`: **the count nearest to the fraction is nearest to the root**, as the counts around
  a root are even, and one that is odd is far away;
* `IsRoundedRoot`, `isRoundedRoot_sqrt`: **roots are rounded to the nearest number**;
* `exists_toRat_eq_two_pow_mul`, `exists_two_pow_mul_toRat_eq`: numbers times a power of two are
  numbers;
* `IsRoundedRoot.two_pow_mul_le`: **roots keep a power of four between their squares**.
-/

namespace ColumnStats

-- powers are those of the core library
attribute [local instance (2000)] instPowNat

/-! ## Roots of whole numbers -/

/-- Twice the whole part of a root, and one more if something is left. -/
def twiceSqrt (square : Nat) : Nat :=
  2 * square.sqrt + if square.sqrt * square.sqrt = square then 0 else 1

section WholeNumbers

variable {square : Nat}

theorem twiceSqrt_lt_iff {k : Nat} : twiceSqrt square < 2 * k ↔ square < k * k := by
  rw [← Nat.sqrt_lt, twiceSqrt]
  split <;> omega

theorem lt_twiceSqrt_iff {k : Nat} : 2 * k < twiceSqrt square ↔ k * k < square := by
  have root := @Nat.le_sqrt k square
  unfold twiceSqrt
  split
  next whole =>
    rw [Nat.add_zero, Nat.mul_lt_mul_left Nat.two_pos]
    nth_rewrite 2 [← whole]
    exact Nat.mul_self_lt_mul_self_iff.symm
  next rest =>
    have apart : k * k ≠ square := by
      rintro rfl
      exact rest (by rw [Nat.sqrt_eq])
    omega

theorem twiceSqrt_mono {square' : Nat} (le : square ≤ square') :
    twiceSqrt square ≤ twiceSqrt square' := by
  rcases Nat.lt_or_eq_of_le (Nat.sqrt_le_sqrt le) with less | same
  · unfold twiceSqrt
    split <;> split <;> omega
  · -- above the same whole part, only the smaller square can be whole
    have := Nat.sqrt_le square
    unfold twiceSqrt
    rw [same] at this ⊢
    split <;> split <;> omega

theorem sqrt_lt_int_iff (k : ℤ) : √(square : ℝ) < k ↔ (twiceSqrt square : ℤ) < 2 * k := by
  rcases lt_or_ge 0 k with positive | nonpos
  · lift k to ℕ using positive.le
    rw [Int.cast_natCast, Real.sqrt_lt' (by exact_mod_cast positive)]
    have := @twiceSqrt_lt_iff square k
    rw [← pow_two] at this
    exact_mod_cast this.symm
  · have below : (k : ℝ) ≤ √square := le_trans (by exact_mod_cast nonpos) (Real.sqrt_nonneg _)
    exact iff_of_false (not_lt.2 below) (by omega)

theorem int_lt_sqrt_iff (k : ℤ) : k < √(square : ℝ) ↔ 2 * k < (twiceSqrt square : ℤ) := by
  rcases lt_or_ge k 0 with negative | nonneg
  · have above : (k : ℝ) < √square := lt_of_lt_of_le (by exact_mod_cast negative) (Real.sqrt_nonneg _)
    exact iff_of_true above (by omega)
  · lift k to ℕ using nonneg
    rw [Int.cast_natCast, Real.lt_sqrt k.cast_nonneg]
    have := @lt_twiceSqrt_iff square k
    rw [← pow_two] at this
    exact_mod_cast this.symm

end WholeNumbers

/-! ## Distances -/

/-- Which of two whole numbers with an even sum is nearer depends on the side of the whole number in
their middle, and the root and the fraction are on the same side of it. -/
theorem nearer_iff_of_even {square : Nat} {u w : ℤ} (even : Even (u + w)) :
    |(u : ℝ) - √square| < |(w : ℝ) - √square| ↔
      |(u : ℝ) - twiceSqrt square / 2| < |(w : ℝ) - twiceSqrt square / 2| := by
  obtain ⟨k, middle⟩ := even
  have middle : (u : ℝ) + w = 2 * k := by
    rw [two_mul]
    exact_mod_cast middle
  have below : 0 < (2 * k : ℝ) - 2 * √square ↔ 0 < (2 * k : ℝ) - twiceSqrt square := by
    have := @sqrt_lt_int_iff square k
    rw [sub_pos, sub_pos, mul_lt_mul_iff_right₀ two_pos, this]
    exact_mod_cast Iff.rfl
  have above : (2 * k : ℝ) - 2 * √square < 0 ↔ (2 * k : ℝ) - twiceSqrt square < 0 := by
    have := @int_lt_sqrt_iff square k
    rw [sub_neg, sub_neg, mul_lt_mul_iff_right₀ two_pos, this]
    exact_mod_cast Iff.rfl
  rw [abs_sub_lt_abs_sub_iff, abs_sub_lt_abs_sub_iff, mul_pos_iff, mul_pos_iff, middle,
    mul_div_cancel₀ _ two_ne_zero, below, above]

theorem even_of_le {n : Nat} (fits : 2 ^ ulpExponent n ∣ n) (large : 2 ^ (53 : Nat) ≤ n) :
    Even n := by
  have short := lt_two_pow_ulpExponent n
  have spaced : ulpExponent n ≠ 0 := by
    intro none
    rw [none, Nat.pow_zero, Nat.mul_one] at short
    omega
  exact even_iff_two_dvd.2 ((dvd_pow_self 2 spaced).trans fits)

theorem cast_abs_sub_half (n twice : Nat) :
    |(n : ℝ) - twice / 2| = ((|(n : ℚ) - twice / 2| : ℚ) : ℝ) := by
  push_cast
  rfl

/-- **The count nearest to the fraction is nearest to the root.** -/
theorem isNearest_sqrt {square units : Nat} (h : IsNearestCount (twiceSqrt square / 2) units)
    (large : 2 ^ (53 : Nat) < units) :
    IsNearest (Nat.cast : Nat → ℝ) (fun n => 2 ^ ulpExponent n ∣ n) √square units
      (Even (significand units)) := by
  intro n fits other
  have even := even_of_le h.fits large.le
  have transfer {u w : Nat} (sum : Even (u + w)) :
      |(u : ℝ) - √square| < |(w : ℝ) - √square| ↔
        |(u : ℚ) - twiceSqrt square / 2| < |(w : ℚ) - twiceSqrt square / 2| := by
    have nearer := @nearer_iff_of_even square u w (by exact_mod_cast sum)
    simpa only [Int.cast_natCast, cast_abs_sub_half, Rat.cast_lt] using nearer
  rcases Nat.even_or_odd n with even' | odd
  · have sum : Even (units + n) := even.add even'
    have other : (n : ℚ) ≠ units := fun same => other (congrArg Nat.cast (Nat.cast_inj.1 same))
    rcases h.nearest n fits other with strict | ⟨tie, significand⟩
    · exact Or.inl ((transfer sum).2 strict)
    · refine Or.inr ⟨le_antisymm ?_ ?_, significand⟩
      · rw [← not_lt, transfer (even'.add even), not_lt]
        exact tie.le
      · rw [← not_lt, transfer sum, not_lt]
        exact tie.ge
  · -- an odd count is below `2 ^ 53`, which is itself no nearer
    left
    have below : n < 2 ^ (53 : Nat) := by
      by_contra above
      exact Nat.not_even_iff_odd.2 odd (even_of_le fits (Nat.not_lt.1 above))
    have sum : Even (2 ^ (53 : Nat) + units) := Even.add (by decide) even
    have farther := mt (transfer sum).1 (not_lt.2 (h.nearest.abs_sub_le (by decide)))
    generalize 2 ^ (53 : Nat) = bound at *
    have large : (bound : ℝ) < units := Nat.cast_lt.2 large
    have below : (n : ℝ) < bound := Nat.cast_lt.2 below
    have side := add_le_two_mul (not_lt.1 farther) large
    rw [abs_sub_lt_abs_sub_iff]
    exact mul_pos_of_neg_of_neg (by linarith) (by linarith)

/-! ## Roots of numbers -/

namespace Binary64

/-- The number nearest to the root of a rational, and even in a tie. -/
def IsRoundedRoot (square : ℚ) (x : Binary64) : Prop :=
  ∃ units representable, x = .finite false units representable ∧
    IsNearest (fun y : Binary64 => (y.toRat : ℝ)) (fun y => y.isFinite) √square x.toRat
      (Even (significand units))

theorem sqrtUnits_eq (n : Nat) :
    sqrtUnits n = ofFraction false (twiceSqrt (n * unitsPerOne)) 2 := by
  rw [sqrtUnits, twiceSqrt]

/-- The overflow threshold lies at the square of a representable number. -/
theorem exists_overflowUnits_eq : ∃ power, overflowUnits = power * power * unitsPerOne ∧
    Representable (power * unitsPerOne) := by
  obtain ⟨half, e⟩ : ∃ half, half = 512 := ⟨512, rfl⟩
  refine ⟨2 ^ half, ?_, ?_⟩
  · rw [overflowUnits, unitsPerOne, ← Nat.pow_add]
    exact @two_pow_eq_mul 2098 (half + half) 1074 (by omega)
  · have last := @representable_mul_unitsPerOne 1 half (by decide) (by omega)
    rwa [Nat.one_mul] at last

theorem exists_sqrt_eq {n : Nat} (hn : Representable n) (nonzero : n ≠ 0) :
    ∃ units representable, (finite false n hn).sqrt = finite false units representable ∧
      2 ^ (53 : Nat) < units ∧ IsNearestCount (twiceSqrt (n * unitsPerOne) / 2) units := by
  obtain ⟨power, threshold, last⟩ := exists_overflowUnits_eq
  have one : 2 ^ (54 : Nat) * 2 ^ (54 : Nat) < unitsPerOne := by
    rw [← Nat.pow_add, unitsPerOne]
    exact @Nat.pow_lt_pow_right 2 (54 + 54) 1074 (by decide) (by decide)
  have above : 2 * 2 ^ (54 : Nat) < twiceSqrt (n * unitsPerOne) := by
    rw [lt_twiceSqrt_iff]
    exact one.trans_le (Nat.le_mul_of_pos_left _ (Nat.pos_of_ne_zero nonzero))
  have below : twiceSqrt (n * unitsPerOne) < 2 * (power * unitsPerOne) := by
    have small := hn.2
    rw [threshold] at small
    rw [twiceSqrt_lt_iff]
    calc n * unitsPerOne < power * power * unitsPerOne * unitsPerOne :=
          Nat.mul_lt_mul_of_pos_right small (by omega)
      _ = power * unitsPerOne * (power * unitsPerOne) := by ring
  rw [sqrt_finite, if_neg nonzero, if_neg Bool.false_ne_true, sqrtUnits_eq]
  generalize twiceSqrt (n * unitsPerOne) = twice at above below ⊢
  have nearest := isNearestCount_roundUnits Nat.two_pos twice
  have large := @le_roundUnits twice 2 (2 ^ (54 : Nat)) Nat.two_pos (by decide) (by omega)
  have small := @roundUnits_le twice 2 _ Nat.two_pos last.1 (by omega)
  obtain ⟨representable, e⟩ := ofFraction_of_lt (small.trans_lt last.2) false
  exact ⟨_, representable, e, by omega, by exact_mod_cast nearest⟩

theorem sqrt_div_unitsPerOne (n : Nat) :
    √((n * unitsPerOne : Nat) : ℝ) / unitsPerOne = √((n / unitsPerOne : ℚ) : ℝ) := by
  have one : (0 : ℝ) < unitsPerOne := by exact_mod_cast unitsPerOne_pos
  have fraction : ((n / unitsPerOne : ℚ) : ℝ) =
      ((n * unitsPerOne : Nat) : ℝ) / (unitsPerOne * unitsPerOne) := by
    push_cast
    rw [mul_div_mul_right _ _ one.ne']
  rw [fraction, Real.sqrt_div (Nat.cast_nonneg _), Real.sqrt_mul_self one.le]

theorem isRoundedRoot_zero : IsRoundedRoot (zero false).toRat (zero false).sqrt := by
  have root : (zero false).sqrt = zero false := by rw [zero, sqrt_finite, if_pos rfl]
  have origin : (zero false).toRat = 0 := by
    rw [zero, toRat, Nat.cast_zero, zero_div, withSign_zero]
  rw [root]
  refine ⟨0, representable_zero, rfl, fun y _ other => Or.inl ?_⟩
  rw [origin] at other ⊢
  rw [Rat.cast_zero, Real.sqrt_zero, sub_zero, sub_zero, abs_zero, abs_pos]
  exact_mod_cast other

/-- **Roots are rounded to the nearest number.** -/
theorem isRoundedRoot_sqrt {n : Nat} (hn : Representable n) :
    IsRoundedRoot (finite false n hn).toRat (finite false n hn).sqrt := by
  by_cases none : n = 0
  · subst none
    exact isRoundedRoot_zero
  obtain ⟨units, representable, e, large, count⟩ := exists_sqrt_eq hn none
  have one : (0 : ℝ) < unitsPerOne := by exact_mod_cast unitsPerOne_pos
  have nearest := (isNearest_sqrt count large).div one
  rw [sqrt_div_unitsPerOne] at nearest
  have cast (k : Nat) : ((k / unitsPerOne : ℚ) : ℝ) = k / unitsPerOne := by
    push_cast
    rfl
  refine ⟨units, representable, e, fun y finite other => ?_⟩
  obtain ⟨a, signed, sides⟩ := exists_toRat_eq false finite
  have signed : y.toRat = a := signed
  have value : ((Binary64.finite false units representable).toRat : ℝ) = units / unitsPerOne := cast units
  simp only [e, value, signed] at other ⊢
  refine nearest.signed (i := 0) (Real.sqrt_nonneg _) ?_ other ?_
  · exact ⟨Nat.dvd_zero _, by rw [Nat.cast_zero, zero_div]⟩
  · rcases sides with negative | ⟨n, fits, rfl⟩
    · exact Or.inl (Rat.cast_lt_zero.2 negative)
    · exact Or.inr ⟨n, fits, cast n⟩

end Binary64

/-! ## Powers of two -/

theorem significand_lt (n : Nat) : significand n < 2 ^ (53 : Nat) := by
  rw [significand, Nat.div_lt_iff_lt_mul (Nat.two_pow_pos _)]
  exact lt_two_pow_ulpExponent n

theorem significand_mul {n : Nat} (fits : 2 ^ ulpExponent n ∣ n) :
    significand n * 2 ^ ulpExponent n = n := Nat.div_mul_cancel fits

theorem Representable.mul_two_pow {n k : Nat} (h : Representable n)
    (small : n * 2 ^ k < overflowUnits) : Representable (n * 2 ^ k) := by
  refine ⟨?_, small⟩
  rw [← significand_mul h.1, Nat.mul_assoc, ← Nat.pow_add]
  exact two_pow_ulpExponent_dvd (significand_lt n).le

theorem Representable.exists_eq_mul_two_pow {n k : Nat} (h : Representable n)
    (large : 2 ^ (52 : Nat) * 2 ^ k ≤ n) : ∃ m, n = m * 2 ^ k ∧ Representable m := by
  have nonzero : n ≠ 0 := by
    rintro rfl
    exact absurd large (Nat.not_le.2 (by positivity))
  have coarse : k ≤ ulpExponent n := by
    rw [← Nat.pow_add, ← Nat.le_log2 nonzero] at large
    rw [ulpExponent]
    omega
  obtain ⟨e, split⟩ := Nat.exists_eq_add_of_le' coarse
  have split' : n = significand n * 2 ^ e * 2 ^ k := by
    rw [Nat.mul_assoc, ← Nat.pow_add, ← split, significand_mul h.1]
  refine ⟨significand n * 2 ^ e, split', two_pow_ulpExponent_dvd (significand_lt n).le, ?_⟩
  refine lt_of_le_of_lt ?_ h.2
  nth_rewrite 2 [split']
  exact Nat.le_mul_of_pos_right _ (Nat.two_pow_pos k)

namespace Binary64

theorem IsRoundedRoot.abs_sub_le {square : ℚ} {x y : Binary64} (h : IsRoundedRoot square x)
    (finite : y.isFinite) : |(x.toRat : ℝ) - √square| ≤ |(y.toRat : ℝ) - √square| := by
  obtain ⟨units, representable, -, nearest⟩ := h
  exact nearest.abs_sub_le finite

theorem toRat_mul_two_pow {k m : Nat} (hm : Representable m) (hm' : Representable (m * 2 ^ k)) :
    (finite false (m * 2 ^ k) hm').toRat = 2 ^ k * (finite false m hm).toRat := by
  change ((m * 2 ^ k : Nat) / unitsPerOne : ℚ) = 2 ^ k * (m / unitsPerOne)
  push_cast
  ring

theorem exists_toRat_eq_two_pow_mul {k m : Nat} (hm : Representable m)
    (small : 2 ^ k * (finite false m hm).toRat < 2 ^ 1024) :
    ∃ y : Binary64, y.isFinite ∧ y.toRat = 2 ^ k * (finite false m hm).toRat := by
  have below : m * 2 ^ k < overflowUnits := by
    have small : (2 ^ k * (m / unitsPerOne) : ℚ) < 2 ^ 1024 := small
    rw [← mul_div_assoc, div_lt_iff₀ unitsPerOne_pos, ← overflowUnits_eq_mul, mul_comm] at small
    exact_mod_cast small
  exact ⟨_, rfl, toRat_mul_two_pow hm (hm.mul_two_pow below)⟩

theorem exists_two_pow_mul_toRat_eq {k m : Nat} (hm : Representable m) (coarse : k ≤ 1022)
    (large : 1 ≤ (finite false m hm).toRat) :
    ∃ y : Binary64, y.isFinite ∧ 2 ^ k * y.toRat = (finite false m hm).toRat := by
  have above : 2 ^ (52 : Nat) * 2 ^ k ≤ m := by
    have large : (1 : ℚ) ≤ m / unitsPerOne := large
    rw [le_div_iff₀ unitsPerOne_pos, one_mul] at large
    refine le_trans ?_ (Nat.cast_le.1 large)
    rw [← Nat.pow_add, unitsPerOne]
    exact @Nat.pow_le_pow_right 2 Nat.two_pos (52 + k) 1074 (by omega)
  obtain ⟨m', rfl, hm'⟩ := hm.exists_eq_mul_two_pow above
  exact ⟨finite false m' hm', rfl, (toRat_mul_two_pow hm' hm).symm⟩

/-- **Roots keep a power of four between their squares**, as its own root. -/
theorem IsRoundedRoot.two_pow_mul_le {k : Nat} {p q : ℚ} {x y : Binary64} (hx : IsRoundedRoot p x)
    (hy : IsRoundedRoot q y) (coarse : k ≤ 1022) (nonneg : 0 ≤ p) (small : q ≤ 2 ^ 128)
    (large : 1 ≤ y.toRat) (less : 2 ^ (2 * k) * p < q) : 2 ^ k * x.toRat ≤ y.toRat := by
  by_contra above
  have root : 2 ^ k * √(p : ℝ) < √(q : ℝ) := by
    have scaled : 2 ^ k * √(p : ℝ) = √((2 ^ (2 * k) * p : ℚ) : ℝ) := by
      push_cast
      rw [Real.sqrt_mul (by positivity), pow_mul', Real.sqrt_sq (by positivity)]
    rw [scaled]
    exact Real.sqrt_lt_sqrt (by positivity) (by exact_mod_cast less)
  have size : √(q : ℝ) ≤ 2 ^ 64 := by
    rw [Real.sqrt_le_left (by positivity), ← pow_mul]
    exact_mod_cast small
  -- the first root times the power is a number, as its square is bounded
  have origin := hx.abs_sub_le (y := zero false) rfl
  rw [(isInteger_zero false).toRat_eq, Int.cast_zero, Rat.cast_zero, zero_sub, abs_neg,
    abs_of_nonneg (Real.sqrt_nonneg _)] at origin
  have bounded : 2 ^ k * x.toRat < 2 ^ 1024 := by
    have twice : (x.toRat : ℝ) ≤ 2 * √p := by linarith [(abs_le.1 origin).2]
    have power := mul_le_mul_of_nonneg_left twice (by positivity : (0 : ℝ) ≤ 2 ^ k)
    have bounded : (2 ^ k * x.toRat : ℝ) < 2 ^ 65 := by linarith
    have far : (2 : ℚ) ^ 65 < 2 ^ 1024 := pow_lt_pow_right₀ one_lt_two (by norm_num)
    exact lt_trans (by exact_mod_cast bounded) far
  obtain ⟨m, hm, rfl, -⟩ := id hx
  obtain ⟨n, hn, rfl, -⟩ := id hy
  obtain ⟨up, upFinite, upValue⟩ := @exists_toRat_eq_two_pow_mul k m hm bounded
  obtain ⟨down, downFinite, downValue⟩ := exists_two_pow_mul_toRat_eq hn coarse large
  have near := hx.abs_sub_le downFinite
  have near' := hy.abs_sub_le upFinite
  rw [upValue] at near'
  generalize (finite false m hm).toRat = x at *
  generalize (finite false n hn).toRat = y at *
  have above : (y : ℝ) < 2 ^ k * x := by exact_mod_cast not_le.1 above
  have downValue : 2 ^ k * (down.toRat : ℝ) = y := by exact_mod_cast downValue
  have below : (down.toRat : ℝ) < x := by
    rw [← downValue] at above
    exact lt_of_mul_lt_mul_left above (by positivity)
  push_cast at near'
  have middle := add_le_two_mul near below
  have middle' := two_mul_le_add near' above
  have scaled := mul_le_mul_of_nonneg_left middle (by positivity : (0 : ℝ) ≤ 2 ^ k)
  linarith

end Binary64

end ColumnStats
