import ColumnStats.Proofs.RoundingBounds
import ColumnStats.Summary

/-!
# Arithmetic by kinds and signs

What is known of a result when little more is known of the operands than whether they are numbers,
whether they are finite, and their signs.

* `add_ne_nan`, `sub_ne_nan`, `mul_ne_nan`, `div_ne_nan`: operations that give a number;
* `zero_true_add`: the negative zero is neutral;
* `IsUnsigned`: a number whose sign bit is clear. Squares are unsigned; so are sums and roots of
  unsigned numbers, and products and quotients with positive ones;
* `IsBetween`: a finite number between two whole numbers. `isBetween_ofNat`, `IsBetween.sub_ofNat_one`,
  `IsBetween.sqrt`: **counts, one less, and their roots stay away from zero and from overflow**;
* `sum_eq_of_toList`: a sum starts from the first value.
-/

namespace ColumnStats.Binary64

-- powers are those of the core library
attribute [local instance (2000)] instPowNat

variable {x y z : Binary64}

/-! ## Kinds -/

/-- A finite number above zero. -/
structure IsPositive (x : Binary64) : Prop where
  isFinite : x.isFinite
  pos : 0 < x.toRat

theorem exists_units_of_isFinite (finite : x.isFinite) :
    ∃ negative units representable, x = .finite negative units representable := by
  cases x with
  | nan => cases finite
  | infinite _ => cases finite
  | finite negative units representable => exact ⟨negative, units, representable, rfl⟩

theorem exists_units_of_toRat_ne_zero (finite : x.isFinite) (nonzero : x.toRat ≠ 0) :
    ∃ negative units representable, x = .finite negative units representable ∧ units ≠ 0 := by
  obtain ⟨negative, units, representable, rfl⟩ := exists_units_of_isFinite finite
  refine ⟨negative, units, representable, rfl, ?_⟩
  rintro rfl
  rw [toRat, Nat.cast_zero, zero_div, withSign_zero] at nonzero
  exact nonzero rfl

theorem IsPositive.exists_units (h : x.IsPositive) :
    ∃ units representable, x = .finite false units representable ∧ units ≠ 0 := by
  obtain ⟨negative, units, representable, rfl, nonzero⟩ :=
    exists_units_of_toRat_ne_zero h.isFinite h.pos.ne'
  cases negative with
  | false => exact ⟨units, representable, rfl, nonzero⟩
  | true =>
    have negative : -(units / unitsPerOne : ℚ) ≤ 0 :=
      neg_nonpos.2 (div_nonneg units.cast_nonneg unitsPerOne_pos.le)
    exact absurd h.pos (not_lt.2 negative)

theorem isPositive_finite {units : Nat} (representable : Representable units)
    (nonzero : units ≠ 0) : (finite false units representable).IsPositive where
  isFinite := rfl
  pos := div_pos (Nat.cast_pos.2 (Nat.pos_of_ne_zero nonzero)) unitsPerOne_pos

/-! ## Numbers -/

theorem ne_nan_of_isFinite (finite : x.isFinite) : x ≠ nan := by
  rintro rfl
  cases finite

theorem ofFraction_ne_nan (negative : Bool) (num den : Nat) :
    ofFraction negative num den ≠ nan := by
  rw [ofFraction]
  split <;> simp

theorem ofFraction_zero (negative : Bool) (den : Nat) : ofFraction negative 0 den = zero negative := by
  have none : roundUnits 0 den = 0 := by simp [roundUnits]
  simp only [ofFraction, none, overflowUnits_pos, dite_true, zero]

theorem neg_ne_nan (number : x ≠ nan) : -x ≠ nan := by
  cases x with
  | nan => exact absurd rfl number
  | infinite _ => exact Binary64.noConfusion
  | finite _ _ => exact Binary64.noConfusion

theorem add_ne_nan (number : x ≠ nan) (finite : y.isFinite) : x + y ≠ nan := by
  obtain ⟨t, n, hn, rfl⟩ := exists_units_of_isFinite finite
  cases x with
  | nan => exact absurd rfl number
  | infinite _ =>
    rw [infinite_add_finite]
    exact Binary64.noConfusion
  | finite s m =>
    rw [finite_add_finite]
    split
    · exact Binary64.noConfusion
    · exact ofFraction_ne_nan _ _ _

theorem sub_ne_nan (finite : x.isFinite) (number : y ≠ nan) : x - y ≠ nan := by
  have swapped : x - y = -y + x := Binary64.add_comm x (-y)
  rw [swapped]
  exact add_ne_nan (neg_ne_nan number) finite

theorem mul_ne_nan (number : x ≠ nan) (finite : z.isFinite) (nonzero : z.toRat ≠ 0) :
    x * z ≠ nan := by
  obtain ⟨t, n, hn, rfl, units⟩ := exists_units_of_toRat_ne_zero finite nonzero
  cases x with
  | nan => exact absurd rfl number
  | infinite s =>
    rw [infinite_mul_finite, if_neg units]
    exact Binary64.noConfusion
  | finite s m =>
    rw [finite_mul_finite]
    exact ofFraction_ne_nan _ _ _

theorem div_ne_nan (number : x ≠ nan) (positive : y.IsPositive) : x / y ≠ nan := by
  obtain ⟨n, hn, rfl, nonzero⟩ := positive.exists_units
  cases x with
  | nan => exact absurd rfl number
  | infinite _ =>
    rw [infinite_div_finite]
    exact Binary64.noConfusion
  | finite s m =>
    rw [finite_div_finite nonzero]
    exact ofFraction_ne_nan _ _ _

theorem zero_true_add (x : Binary64) : zero true + x = x := by
  cases x with
  | nan => rfl
  | infinite _ => rfl
  | finite t n hn =>
    have sum : signed true 0 + signed t n = signed t n := by simp [signed]
    rw [zero, finite_add_finite, sum, Bool.true_and]
    rcases Nat.eq_zero_or_pos n with rfl | positive
    · rw [if_pos (by cases t <;> rfl)]
      rfl
    · have sign : decide (signed t n < 0) = t := by
        cases t <;> simp [signed, positive]
      have units : (signed t n).natAbs = n := by
        cases t <;> simp [signed]
      rw [if_neg (by rw [← Int.natAbs_eq_zero, units]; exact positive.ne'), sign, units,
        ofFraction_units]

/-! ## Signs -/

/-- The sign bit; that of NaN does not matter. -/
def isNegative : Binary64 → Bool
  | nan => false
  | infinite negative => negative
  | finite negative _ _ => negative

/-- A number, infinite or not, whose sign bit is clear. -/
structure IsUnsigned (x : Binary64) : Prop where
  ne_nan : x ≠ nan
  clear : x.isNegative = false

theorem IsUnsigned.eq_or (h : x.IsUnsigned) :
    x = infinite false ∨ ∃ units representable, x = finite false units representable := by
  obtain ⟨number, clear⟩ := h
  cases x with
  | nan => exact absurd rfl number
  | infinite negative =>
    obtain rfl : negative = false := clear
    exact Or.inl rfl
  | finite negative units representable =>
    obtain rfl : negative = false := clear
    exact Or.inr ⟨units, representable, rfl⟩

theorem isUnsigned_infinite : (infinite false).IsUnsigned := ⟨Binary64.noConfusion, rfl⟩

theorem isUnsigned_finite {units : Nat} (representable : Representable units) :
    (finite false units representable).IsUnsigned := ⟨Binary64.noConfusion, rfl⟩

theorem isUnsigned_ofFraction (num den : Nat) : (ofFraction false num den).IsUnsigned := by
  rw [ofFraction]
  split
  · exact isUnsigned_finite _
  · exact isUnsigned_infinite

theorem isUnsigned_mul_self (number : x ≠ nan) : (x * x).IsUnsigned := by
  cases x with
  | nan => exact absurd rfl number
  | infinite s =>
    rw [infinite_mul_infinite, Bool.xor_self]
    exact isUnsigned_infinite
  | finite s m =>
    rw [finite_mul_finite, Bool.xor_self]
    exact isUnsigned_ofFraction _ _

theorem IsUnsigned.add (hx : x.IsUnsigned) (hy : y.IsUnsigned) : (x + y).IsUnsigned := by
  rcases hx.eq_or with rfl | ⟨m, hm, rfl⟩
  · rcases hy.eq_or with rfl | ⟨n, hn, rfl⟩ <;> exact isUnsigned_infinite
  · rcases hy.eq_or with rfl | ⟨n, hn, rfl⟩
    · exact isUnsigned_infinite
    · have nonneg : ¬ signed false m + signed false n < 0 := by
        simp only [signed, Bool.false_eq_true, if_false]
        omega
      rw [finite_add_finite, decide_eq_false nonneg]
      split
      · exact isUnsigned_finite _
      · exact isUnsigned_ofFraction _ _

theorem IsUnsigned.mul (hx : x.IsUnsigned) (hz : z.IsPositive) : (x * z).IsUnsigned := by
  obtain ⟨n, hn, rfl, nonzero⟩ := hz.exists_units
  rcases hx.eq_or with rfl | ⟨m, hm, rfl⟩
  · rw [infinite_mul_finite, if_neg nonzero]
    exact isUnsigned_infinite
  · rw [finite_mul_finite]
    exact isUnsigned_ofFraction _ _

theorem IsUnsigned.div (hx : x.IsUnsigned) (hy : y.IsPositive) : (x / y).IsUnsigned := by
  obtain ⟨n, hn, rfl, nonzero⟩ := hy.exists_units
  rcases hx.eq_or with rfl | ⟨m, hm, rfl⟩
  · rw [infinite_div_finite]
    exact isUnsigned_infinite
  · rw [finite_div_finite nonzero]
    exact isUnsigned_ofFraction _ _

theorem IsUnsigned.sqrt (hx : x.IsUnsigned) : x.sqrt.IsUnsigned := by
  rcases hx.eq_or with rfl | ⟨m, hm, rfl⟩
  · exact isUnsigned_infinite
  · rw [sqrt_finite]
    split
    · exact isUnsigned_finite hm
    · rw [if_neg Bool.false_ne_true, sqrtUnits]
      exact isUnsigned_ofFraction _ _

/-! ## Counts -/

/-- A finite number between two whole numbers. -/
def IsBetween (low high : Nat) (x : Binary64) : Prop :=
  ∃ units representable, x = finite false units representable ∧
    low * unitsPerOne ≤ units ∧ units ≤ high * unitsPerOne

variable {low high n : Nat}

theorem representable_mul_unitsPerOne {k : Nat} (short : n ≤ 2 ^ (53 : Nat)) (small : k ≤ 970) :
    Representable (n * 2 ^ k * unitsPerOne) := by
  obtain ⟨e, one, he⟩ : ∃ e, unitsPerOne = 2 ^ e ∧ e = 1074 := ⟨1074, rfl, rfl⟩
  obtain ⟨last, top, hl⟩ : ∃ last, overflowUnits = 2 ^ (53 : Nat) * 2 ^ last ∧ last = 2045 :=
    ⟨2045, overflowUnits_eq, rfl⟩
  rw [one, Nat.mul_assoc, ← Nat.pow_add]
  refine ⟨two_pow_ulpExponent_dvd short, (Nat.mul_le_mul_right _ short).trans_lt ?_⟩
  rw [top, Nat.mul_lt_mul_left (Nat.two_pow_pos _)]
  exact Nat.pow_lt_pow_right (by decide) (by omega)

theorem ofNat_eq (short : n ≤ 2 ^ (53 : Nat)) :
    ∃ representable, ofNat n = finite false (n * unitsPerOne) representable := by
  have representable := representable_mul_unitsPerOne short (Nat.zero_le 970)
  rw [Nat.pow_zero, Nat.mul_one] at representable
  exact ⟨representable, ofFraction_units false representable⟩

theorem isBetween_ofNat (short : low ≤ 2 ^ (53 : Nat)) (above : low ≤ n)
    (below : n ≤ 2 ^ (64 : Nat)) : IsBetween low (2 ^ (64 : Nat)) (ofNat n) := by
  have first := (representable_mul_unitsPerOne short (Nat.zero_le 970)).1
  have last := representable_mul_unitsPerOne (n := 1) (k := 64) (by decide) (by decide)
  rw [Nat.pow_zero, Nat.mul_one] at first
  rw [Nat.one_mul] at last
  rw [ofNat, ofRatio]
  refine exists_ofFraction_eq Nat.one_pos first ?_ last ?_ false
  · rw [Nat.mul_one]
    exact Nat.mul_le_mul_right _ above
  · rw [Nat.mul_one]
    exact Nat.mul_le_mul_right _ below

theorem IsBetween.isPositive (h : IsBetween low high x) (positive : 0 < low) : x.IsPositive := by
  obtain ⟨units, representable, rfl, above, -⟩ := h
  have one : 0 < unitsPerOne := Nat.cast_pos.1 unitsPerOne_pos
  exact isPositive_finite representable ((Nat.mul_pos positive one).trans_le above).ne'

theorem IsBetween.toRat_bounds (h : IsBetween low high x) : low ≤ x.toRat ∧ x.toRat ≤ high := by
  obtain ⟨units, representable, rfl, above, below⟩ := h
  change (low : ℚ) ≤ units / unitsPerOne ∧ (units / unitsPerOne : ℚ) ≤ high
  rw [le_div_iff₀ unitsPerOne_pos, div_le_iff₀ unitsPerOne_pos]
  exact ⟨by exact_mod_cast above, by exact_mod_cast below⟩

theorem IsBetween.sub_ofNat_one (h : IsBetween 2 high x) : IsBetween 1 high (x - ofNat 1) := by
  obtain ⟨units, representable, rfl, above, below⟩ := h
  obtain ⟨one, e⟩ := ofNat_eq (n := 1) (by decide)
  have first := one.1
  have difference : finite false units representable - ofNat 1 =
      finite false units representable + finite true (1 * unitsPerOne) one := by
    rw [e]
    rfl
  have positive : 0 < unitsPerOne := Nat.cast_pos.1 unitsPerOne_pos
  have sum : signed false units + signed true (1 * unitsPerOne) =
      ((units - 1 * unitsPerOne : Nat) : Int) := by
    simp only [signed, Bool.false_eq_true, if_true, if_false]
    omega
  rw [difference, finite_add_finite, sum, if_neg (by omega), Int.natAbs_natCast,
    decide_eq_false (by omega)]
  have lower : 1 * unitsPerOne * 1 ≤ units - 1 * unitsPerOne := by omega
  have upper : units - 1 * unitsPerOne ≤ units * 1 := by omega
  obtain ⟨units', representable', e', above', below'⟩ :=
    exists_ofFraction_eq Nat.one_pos first lower representable upper false
  exact ⟨units', representable', e', above', below'.trans below⟩

theorem IsBetween.sqrt (h : IsBetween 1 (2 ^ (64 : Nat)) x) :
    IsBetween 1 (2 ^ (65 : Nat)) x.sqrt := by
  obtain ⟨units, representable, rfl, above, below⟩ := h
  have positive : 0 < unitsPerOne := Nat.cast_pos.1 unitsPerOne_pos
  have first := (representable_mul_unitsPerOne (n := 1) (k := 0) (by decide) (by decide)).1
  have last := representable_mul_unitsPerOne (n := 1) (k := 65) (by decide) (by decide)
  rw [Nat.pow_zero, Nat.mul_one] at first
  rw [Nat.one_mul] at last above
  have lower : unitsPerOne ≤ (units * unitsPerOne).sqrt :=
    Nat.le_sqrt.2 (Nat.mul_le_mul_right _ above)
  have upper : (units * unitsPerOne).sqrt ≤ units :=
    Nat.mul_self_le_mul_self_iff.1 ((Nat.sqrt_le _).trans (Nat.mul_le_mul_left _ above))
  rw [sqrt_finite, if_neg (by omega), if_neg Bool.false_ne_true, sqrtUnits]
  refine exists_ofFraction_eq Nat.two_pos first ?_ last ?_ false
  · omega
  · split <;> omega

end ColumnStats.Binary64

/-! ## Sums -/

namespace ColumnStats

variable {series : Array Binary64}

theorem sum_eq_foldl (series : Array Binary64) :
    sum series = series.toList.foldl (· + ·) (.zero true) :=
  (Array.foldl_toList _).symm

/-- The first addition is exact, and the sign of the start is gone after it. -/
theorem sum_eq_of_toList {x : Binary64} {rest : List Binary64} (h : series.toList = x :: rest) :
    sum series = rest.foldl (· + ·) x := by
  rw [sum_eq_foldl, h, List.foldl_cons, Binary64.zero_true_add]

theorem exists_toList_eq_cons (nonempty : 1 ≤ series.size) :
    ∃ x rest, series.toList = x :: rest :=
  List.exists_cons_of_length_pos (by rwa [Array.length_toList])

end ColumnStats
