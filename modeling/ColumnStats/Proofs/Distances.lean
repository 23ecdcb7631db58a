import Mathlib.Algebra.Order.Field.Basic
import Mathlib.Algebra.Order.Ring.Abs
import Mathlib.Tactic.Linarith
import Mathlib.Tactic.Ring

/-!
# Nearest values

Rounding takes the nearest of many values, and of two values that are as near an even one.

* `abs_sub_lt_abs_sub_iff`: which of two values is nearer depends on the side of their middle;
* `le_of_abs_sub_le`: **greater targets have no smaller nearest values**;
* `IsNearest`: **a value that no other one is nearer than**, with its right to a tie;
* `IsNearest.abs_sub_le`, `IsNearest.even_of_le`: the distances of other values;
* `IsNearest.mul`, `IsNearest.div`: the same in other units;
* `IsNearest.signed`: the same with values below zero.
-/

namespace ColumnStats

variable {ι K : Type} [Field K] [LinearOrder K]

/-! ## Sides of a middle -/

section Middle

variable [IsStrictOrderedRing K] {u w p q : K}

theorem abs_sub_lt_abs_sub_iff : |u - q| < |w - q| ↔ 0 < (w - u) * (u + w - 2 * q) := by
  have factors : (w - q) ^ 2 - (u - q) ^ 2 = (w - u) * (u + w - 2 * q) := by ring
  rw [← sq_lt_sq, ← sub_pos, factors]

theorem two_mul_lt_add (near : |u - q| < |w - q|) (below : u < w) : 2 * q < u + w := by
  rw [abs_sub_lt_abs_sub_iff, mul_pos_iff_of_pos_left (sub_pos.2 below)] at near
  exact sub_pos.1 near

theorem add_le_two_mul (near : |u - q| ≤ |w - q|) (above : w < u) : u + w ≤ 2 * q := by
  rw [← not_lt, abs_sub_lt_abs_sub_iff, mul_pos_iff_of_pos_left (sub_pos.2 above), not_lt] at near
  rw [add_comm]
  exact sub_nonpos.1 near

theorem two_mul_le_add (near : |u - q| ≤ |w - q|) (below : u < w) : 2 * q ≤ u + w := by
  by_contra beyond
  refine absurd near (not_le.2 (abs_sub_lt_abs_sub_iff.2 ?_))
  exact mul_pos_of_neg_of_neg (sub_neg.2 below) (by linarith)

/-- **Greater targets have no smaller nearest values.** -/
theorem le_of_abs_sub_le (near : |u - p| ≤ |w - p|) (near' : |w - q| ≤ |u - q|) (less : p < q) :
    u ≤ w := by
  by_contra above
  have upper := add_le_two_mul near (not_le.1 above)
  have lower := two_mul_le_add near' (not_le.1 above)
  linarith

end Middle

/-! ## Nearest of many -/

/-- Of the allowed values, none is nearer to the target. Another one is farther away, or as far away
where `even` holds of this one. -/
def IsNearest (value : ι → K) (allowed : ι → Prop) (target nearest : K) (even : Prop) : Prop :=
  ∀ i, allowed i → value i ≠ nearest →
    |nearest - target| < |value i - target| ∨ |nearest - target| = |value i - target| ∧ even

namespace IsNearest

variable {value : ι → K} {allowed : ι → Prop} {target nearest : K} {even even' : Prop} {i : ι}

theorem abs_sub_le (h : IsNearest value allowed target nearest even) (hi : allowed i) :
    |nearest - target| ≤ |value i - target| := by
  by_cases same : value i = nearest
  · rw [same]
  · rcases h i hi same with near | ⟨tie, -⟩
    · exact near.le
    · exact tie.le

theorem even_of_le (h : IsNearest value allowed target nearest even) (hi : allowed i)
    (other : value i ≠ nearest) (near : |value i - target| ≤ |nearest - target|) : even := by
  rcases h i hi other with strict | ⟨-, even⟩
  · exact absurd near (not_le.2 strict)
  · exact even

theorem imp (h : IsNearest value allowed target nearest even) (weaker : even → even') :
    IsNearest value allowed target nearest even' :=
  fun i hi other => (h i hi other).imp_right (And.imp_right weaker)

variable [IsStrictOrderedRing K] {c : K} (positive : 0 < c)
include positive

theorem mul (h : IsNearest value allowed target nearest even) :
    IsNearest (fun i => value i * c) allowed (target * c) (nearest * c) even := by
  intro i hi other
  have other : value i ≠ nearest := fun same => other (congrArg (· * c) same)
  have distance (a : K) : |a * c - target * c| = |a - target| * c := by
    rw [← sub_mul, abs_mul, abs_of_pos positive]
  rw [distance, distance, mul_lt_mul_iff_of_pos_right positive, mul_left_inj' positive.ne']
  exact h i hi other

theorem div (h : IsNearest value allowed target nearest even) :
    IsNearest (fun i => value i / c) allowed (target / c) (nearest / c) even := by
  simp only [div_eq_mul_inv]
  exact h.mul (inv_pos.2 positive)

omit positive in
/-- A target above zero has no nearer value below zero. -/
theorem signed (h : IsNearest value allowed target nearest even) (nonneg : 0 ≤ target)
    (origin : allowed i ∧ value i = 0) {a : K} (other : a ≠ nearest)
    (sides : a < 0 ∨ ∃ i, allowed i ∧ a = value i) :
    |nearest - target| < |a - target| ∨ |nearest - target| = |a - target| ∧ even := by
  rcases sides with negative | ⟨i, hi, rfl⟩
  · left
    have near := h.abs_sub_le origin.1
    rw [origin.2] at near
    refine near.trans_lt (abs_sub_lt_abs_sub_iff.2 ?_)
    exact mul_pos_of_neg_of_neg (by linarith) (by linarith)
  · exact h i hi other

end IsNearest

end ColumnStats
