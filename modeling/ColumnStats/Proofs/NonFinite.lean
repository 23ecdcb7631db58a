import ColumnStats.Proofs.Arithmetic
import ColumnStats.Proofs.Report

/-!
# Summaries of data that are not finite

A half-width is no number exactly where some value is not finite. An overflow on the way gives an
infinity, which is a number.

* `foldl_ne_nan`, `isUnsigned_foldl`: sums of finite values are numbers, and sums of unsigned numbers
  are unsigned, step by step;
* `IsSaturated`: an infinity, or no number at all; nothing that is added leads out of it
  (`isSaturated_sum`);
* `mean_ne_nan`, `isUnsigned_deviation`: **finite values have a mean and a deviation**;
* `deviation_eq_nan`: **a value that is not finite has no distance from the mean**;
* `half_width_is_nan_iff`: the half-width of a column.
-/

namespace ColumnStats

open Binary64

variable {values : List Binary64} {series : Array Binary64} {start x : Binary64}

/-! ## Sums -/

/-- Only opposite infinities add up to no number, and a finite value is neither. -/
theorem foldl_ne_nan (finite : ∀ x ∈ values, x.isFinite) (number : start ≠ .nan) :
    values.foldl (· + ·) start ≠ .nan := by
  induction values generalizing start with
  | nil => exact number
  | cons x rest ih =>
    rw [List.forall_mem_cons] at finite
    exact ih finite.2 (add_ne_nan number finite.1)

theorem isUnsigned_foldl (unsigned : ∀ x ∈ values, x.IsUnsigned) (h : start.IsUnsigned) :
    (values.foldl (· + ·) start).IsUnsigned := by
  induction values generalizing start with
  | nil => exact h
  | cons x rest ih =>
    rw [List.forall_mem_cons] at unsigned
    exact ih unsigned.2 (h.add unsigned.1)

theorem isUnsigned_sum (nonempty : 1 ≤ series.size) (unsigned : ∀ x ∈ series, x.IsUnsigned) :
    (sum series).IsUnsigned := by
  obtain ⟨x, rest, e⟩ := exists_toList_eq_cons nonempty
  have unsigned : ∀ x ∈ series.toList, x.IsUnsigned := fun x hx => unsigned x (by simpa using hx)
  rw [e, List.forall_mem_cons] at unsigned
  rw [sum_eq_of_toList e]
  exact isUnsigned_foldl unsigned.2 unsigned.1

theorem foldl_nan (values : List Binary64) : values.foldl (· + ·) .nan = .nan := by
  induction values with
  | nil => rfl
  | cons x rest ih => rw [List.foldl_cons, Binary64.nan_add, ih]

theorem sum_eq_nan (mem : .nan ∈ series) : sum series = .nan := by
  obtain ⟨before, after, e⟩ := List.append_of_mem (Array.mem_toList_iff.2 mem)
  rw [sum_eq_foldl, e, List.foldl_append, List.foldl_cons, Binary64.add_nan, foldl_nan]

/-! ## Infinities -/

/-- The infinity of that sign, or no number. -/
def IsSaturated (negative : Bool) (x : Binary64) : Prop := x = .nan ∨ x = .infinite negative

variable {negative : Bool}

theorem IsSaturated.add (h : IsSaturated negative x) (y : Binary64) :
    IsSaturated negative (x + y) := by
  rcases h with rfl | rfl
  · exact Or.inl (Binary64.nan_add y)
  · cases y with
    | nan => exact Or.inl (Binary64.add_nan _)
    | infinite t =>
      rw [infinite_add_infinite]
      split
      · exact Or.inr rfl
      · exact Or.inl rfl
    | finite t n => exact Or.inr infinite_add_finite

theorem isSaturated_add_infinite (x : Binary64) : IsSaturated negative (x + .infinite negative) := by
  rw [Binary64.add_comm]
  exact IsSaturated.add (Or.inr rfl) x

theorem isSaturated_foldl (values : List Binary64) (h : IsSaturated negative start) :
    IsSaturated negative (values.foldl (· + ·) start) := by
  induction values generalizing start with
  | nil => exact h
  | cons x rest ih => exact ih (h.add x)

/-- An infinite value stays in a sum until it meets the other infinity. -/
theorem isSaturated_sum (mem : .infinite negative ∈ series) : IsSaturated negative (sum series) := by
  obtain ⟨before, after, e⟩ := List.append_of_mem (Array.mem_toList_iff.2 mem)
  rw [sum_eq_foldl, e, List.foldl_append, List.foldl_cons]
  exact isSaturated_foldl after (isSaturated_add_infinite _)

theorem IsSaturated.div (h : IsSaturated negative x) {y : Binary64} (positive : y.IsPositive) :
    IsSaturated negative (x / y) := by
  obtain ⟨n, hn, rfl, -⟩ := positive.exists_units
  rcases h with rfl | rfl
  · exact Or.inl (Binary64.nan_div _)
  · rw [infinite_div_finite, Bool.xor_false]
    exact Or.inr rfl

theorem IsSaturated.sub_eq_nan (h : IsSaturated negative x) :
    .infinite negative - x = (.nan : Binary64) := by
  rcases h with rfl | rfl
  · exact Binary64.sub_nan _
  · have opposite : (.infinite negative : Binary64) - .infinite negative =
        .infinite negative + .infinite !negative := rfl
    rw [opposite, infinite_add_infinite, if_neg (by cases negative <;> decide)]

/-! ## Means and deviations -/

theorem isPositive_ofNat_size (nonempty : 1 ≤ series.size) (small : series.size < 2 ^ 64) :
    (Binary64.ofNat series.size).IsPositive :=
  (isBetween_ofNat (by decide) nonempty small.le).isPositive Nat.one_pos

theorem mean_ne_nan (finite : ∀ x ∈ series, x.isFinite) (nonempty : 1 ≤ series.size)
    (small : series.size < 2 ^ 64) : mean series ≠ .nan := by
  rw [mean, sum_eq_foldl]
  refine div_ne_nan (foldl_ne_nan (fun x hx => finite x (by simpa using hx)) ?_)
    (isPositive_ofNat_size nonempty small)
  exact Binary64.noConfusion

/-- **Finite values have an unsigned deviation**, also from an infinite mean. -/
theorem isUnsigned_deviation (finite : ∀ x ∈ series, x.isFinite) (enough : 2 ≤ series.size)
    (small : series.size < 2 ^ 64) : (deviation series (mean series)).IsUnsigned := by
  have number := mean_ne_nan finite (by omega) small
  have count : (Binary64.ofNat series.size).IsBetween 2 (2 ^ 64) :=
    isBetween_ofNat (by decide) enough small.le
  have denominator := count.sub_ofNat_one
  rw [deviation]
  refine IsUnsigned.sqrt (IsUnsigned.div ?_ (denominator.isPositive Nat.one_pos))
  refine isUnsigned_sum (by rw [Array.size_map]; omega) fun square hs => ?_
  obtain ⟨x, hx, rfl⟩ := Array.mem_map.1 hs
  exact isUnsigned_mul_self (sub_ne_nan (finite x hx) number)

/-- **A value that is not finite has no distance from the mean.** -/
theorem deviation_eq_nan (small : series.size < 2 ^ 64) (mem : x ∈ series)
    (nonfinite : x = .nan ∨ ∃ negative, x = .infinite negative) :
    deviation series (mean series) = .nan := by
  have nonempty : 1 ≤ series.size := Array.size_pos_of_mem mem
  have distance : x - mean series = .nan := by
    rcases nonfinite with rfl | ⟨negative, rfl⟩
    · exact Binary64.nan_sub _
    · exact ((isSaturated_sum mem).div (isPositive_ofNat_size nonempty small)).sub_eq_nan
  have square : .nan ∈ series.map fun x => (x - mean series) * (x - mean series) :=
    Array.mem_map.2 ⟨x, mem, by rw [distance, Binary64.nan_mul]⟩
  simp only [deviation, sum_eq_nan square, Binary64.nan_div, sqrt_nan]

theorem not_isFinite_iff {x : Binary64} :
    ¬ x.isFinite ↔ x = .nan ∨ ∃ negative, x = .infinite negative := by
  cases x with
  | nan => simp [isFinite]
  | infinite negative => simp [isFinite]
  | finite _ _ _ => simp [isFinite]

/-! ## Half-widths -/

theorem Column.summary_of_enough {column : Column} {rows : Nat} (enough : 2 ≤ column.values.size)
    (positive : 1 ≤ rows) (z : Binary64) : column.summary rows z = .ok
      ⟨column.label, mean column.values,
        deviation column.values (mean column.values) / (Binary64.ofNat rows).sqrt * z⟩ := by
  rw [Column.summary, if_neg (by omega)]

theorem minus_notMem_fixed (places : Nat) (h : x.isNegative = false) : '-' ∉ x.fixed places := by
  cases x with
  | nan => exact (by decide : '-' ∉ "nan".toList)
  | infinite negative =>
    obtain rfl : negative = false := h
    exact (by decide : '-' ∉ "inf".toList)
  | finite negative units _ =>
    obtain rfl : negative = false := h
    intro minus
    rcases Decimal.mem_pointed minus with digit | point
    · exact absurd digit (by decide)
    · exact absurd point (by decide)

/-- **The half-width is no number exactly where some value is not finite.** Both counts are below `2
^ 64`, as those of a machine are; larger ones could overflow themselves. -/
theorem half_width_is_nan_iff {column : Column} {rows : Nat} {z : Binary64}
    (enough : 2 ≤ column.values.size) (small : column.values.size < 2 ^ 64) (positive : 1 ≤ rows)
    (few : rows < 2 ^ 64) (finite : z.isFinite) (nonzero : z.toRat ≠ 0) :
    ∃ summary, column.summary rows z = .ok summary ∧
      (summary.halfWidth = .nan ↔
        ∃ x ∈ column.values, x = .nan ∨ ∃ negative, x = .infinite negative) ∧
      ((∀ x ∈ column.values, x.isFinite) → summary.mean ≠ .nan ∧
        (0 < z.toRat → summary.halfWidth.isNegative = false ∧
          '-' ∉ summary.halfWidth.fixed Summary.places)) := by
  have root := ((isBetween_ofNat (by decide) positive few.le).sqrt).isPositive Nat.one_pos
  refine ⟨_, Column.summary_of_enough enough positive z, ⟨fun undefined => ?_, ?_⟩, fun are => ?_⟩
  · by_contra all
    have are : ∀ x ∈ column.values, x.isFinite := fun x hx =>
      not_not.1 fun nonfinite => all ⟨x, hx, not_isFinite_iff.1 nonfinite⟩
    have number := (isUnsigned_deviation are enough small).ne_nan
    exact mul_ne_nan (div_ne_nan number root) finite nonzero undefined
  · rintro ⟨x, mem, nonfinite⟩
    simp only [deviation_eq_nan small mem nonfinite, Binary64.nan_div, Binary64.nan_mul]
  · refine ⟨mean_ne_nan are (by omega) small, fun above => ?_⟩
    have unsigned := ((isUnsigned_deviation are enough small).div root).mul ⟨finite, above⟩
    exact ⟨unsigned.clear, minus_notMem_fixed _ unsigned.clear⟩

/-- The sum of two large values overflows, and with it the mean; the half-width is infinite. -/
theorem overflowing_mean_has_half_width :
    let column : Column := ⟨"a", #[.ofNat (2 ^ 1023), .ofNat (2 ^ 1023)]⟩
    ∃ summary, column.summary 2 (.ofNat 2) = .ok summary ∧
      summary.mean = .infinite false ∧ summary.halfWidth = .infinite false ∧
      ¬ ∃ x ∈ column.values, x = .nan ∨ ∃ negative, x = .infinite negative := by
  intro column
  have two : (Binary64.ofNat 2).IsPositive :=
    (@isBetween_ofNat 1 2 (by decide) (by decide) (by decide)).isPositive Nat.one_pos
  obtain ⟨summary, e, undefined, -⟩ := @half_width_is_nan_iff column 2 (.ofNat 2)
    (by decide) (by decide) (by decide) (by decide) two.isFinite two.pos.ne'
  have values : (column.summary 2 (.ofNat 2)).toOption.map (fun s => (s.mean, s.halfWidth)) =
      some (.infinite false, .infinite false) := by decide +kernel
  rw [e] at values
  obtain ⟨mean, halfWidth⟩ := Prod.mk.inj (Option.some.inj values)
  refine ⟨summary, e, mean, halfWidth, fun exception => ?_⟩
  exact Binary64.noConfusion (halfWidth.symm.trans (undefined.2 exception))

end ColumnStats
