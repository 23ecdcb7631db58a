/-!
# Rounding a quotient

`nearestEven a b` is the natural number nearest to `a / b`; a quotient halfway between two
neighbours goes to the even one. Binary numbers and decimal texts are both rounded by it.

* `nearestEven_mul_right`, `nearestEven_one`: exact quotients are kept;
* `div_le_nearestEven`, `nearestEven_le_div_succ`: the result is the floor or its successor;
* `nearestEven_le`: a whole number that bounds the quotient bounds the result.
-/

namespace ColumnStats

/-- The whole number nearest to `num / den`, the even one of two equally near. -/
def nearestEven (num den : Nat) : Nat :=
  let floor := num / den
  let rest := num % den
  if 2 * rest < den then floor
  else if den < 2 * rest then floor + 1
  else floor + floor % 2

theorem div_le_nearestEven (num den : Nat) : num / den ≤ nearestEven num den := by
  simp only [nearestEven]
  split
  · exact Nat.le_refl _
  · split <;> omega

theorem nearestEven_le_div_succ (num den : Nat) : nearestEven num den ≤ num / den + 1 := by
  simp only [nearestEven]
  split
  · omega
  · split <;> omega

theorem nearestEven_mul_right (n : Nat) {den : Nat} (h : 0 < den) :
    nearestEven (n * den) den = n := by
  simp [nearestEven, Nat.mul_div_cancel n h, h]

@[simp] theorem nearestEven_one (n : Nat) : nearestEven n 1 = n := by
  simpa using nearestEven_mul_right n Nat.one_pos

@[simp] theorem nearestEven_zero_left (den : Nat) : nearestEven 0 den = 0 := by
  simp [nearestEven]

theorem nearestEven_le {num den n : Nat} (h : num ≤ n * den) : nearestEven num den ≤ n := by
  rcases Nat.eq_zero_or_pos den with rfl | hd
  · simp_all
  rcases Nat.lt_or_ge (num / den) n with hlt | hge
  · exact Nat.le_trans (nearestEven_le_div_succ num den) hlt
  · have : num = n * den := Nat.le_antisymm h ((Nat.le_div_iff_mul_le hd).1 hge)
    exact Nat.le_of_eq (by rw [this, nearestEven_mul_right n hd])

end ColumnStats
