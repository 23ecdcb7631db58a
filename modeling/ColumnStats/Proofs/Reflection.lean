import ColumnStats.Proofs.Arithmetic

/-!
# Summaries of reflected columns

What becomes of a summary when every value of its column changes its sign.

* `Opposite`: numbers that differ in their signs only, the two zeros being opposite to themselves
  and to each other;
* `Opposite.add`, `Opposite.div`: **sums and quotients of opposite numbers are opposite**, and
  `Opposite.mul_self`: their squares are the same;
* `opposite_sum`, `opposite_mean`, `deviation_reflect`: the same for whole series;
* `reflected_column_is_summarized`: the mean of a reflected column is opposite, and its half-width is
  the same.
-/

namespace ColumnStats

namespace Binary64

variable {x y a b : Binary64} {s t : Bool}

/-! ## Signs -/

theorem signed_not (negative : Bool) (units : Nat) :
    signed (!negative) units = -signed negative units := by
  cases negative <;> simp [signed]

theorem signed_zero (negative : Bool) : signed negative 0 = 0 := by
  cases negative <;> rfl

theorem neg_finite {units : Nat} {representable : Representable units} :
    -finite s units representable = finite (!s) units representable := rfl

theorem neg_infinite : -infinite s = infinite !s := rfl

theorem neg_ofFraction (negative : Bool) (num den : Nat) :
    -ofFraction negative num den = ofFraction (!negative) num den := by
  unfold ofFraction
  split <;> rfl

theorem finite_div_zero {m : Nat} {hm : Representable m} {hn : Representable 0} :
    finite s m hm / finite t 0 hn = if m = 0 then nan else infinite (s ^^ t) := by
  change div _ _ = _
  rw [div, if_pos rfl]

/-! ## Opposite numbers -/

/-- The one number is the other with its sign changed, or both are zero. -/
inductive Opposite : Binary64 → Binary64 → Prop
  | neg (x : Binary64) : Opposite x (-x)
  | zeros (s t : Bool) : Opposite (zero s) (zero t)

theorem Opposite.neg_neg (h : Opposite x y) : Opposite (-x) (-y) := by
  cases h with
  | neg x => exact .neg (-x)
  | zeros s t => exact .zeros (!s) !t

theorem Opposite.eq_or (h : Opposite x y) : y = -x ∨ ∃ s t, x = .zero s ∧ y = .zero t := by
  cases h with
  | neg x => exact Or.inl rfl
  | zeros s t => exact Or.inr ⟨s, t, rfl, rfl⟩

/-- A sum that vanishes is a zero on both sides; any other changes its sign. -/
theorem opposite_add_neg (x a : Binary64) : Opposite (x + a) (-x + -a) := by
  cases x with
  | nan => exact .neg nan
  | infinite s =>
    cases a with
    | nan => exact .neg nan
    | infinite t =>
      rw [neg_infinite, neg_infinite, infinite_add_infinite, infinite_add_infinite]
      by_cases same : s = t
      · rw [if_pos same, if_pos (congrArg not same)]
        exact .neg (infinite s)
      · rw [if_neg same, if_neg fun e => same (Bool.not_inj e)]
        exact .neg nan
    | finite t n => exact .neg (infinite s)
  | finite s m =>
    cases a with
    | nan => exact .neg nan
    | infinite t => exact .neg (infinite t)
    | finite t n =>
      rw [neg_finite, neg_finite, finite_add_finite, finite_add_finite, signed_not, signed_not]
      by_cases none : signed s m + signed t n = 0
      · rw [if_pos none, if_pos (by omega)]
        exact .zeros _ _
      · have sign : decide (-signed s m + -signed t n < 0) =
            !decide (signed s m + signed t n < 0) := by
          rw [← decide_not, decide_eq_decide]
          omega
        have units : (-signed s m + -signed t n).natAbs = (signed s m + signed t n).natAbs := by
          omega
        rw [if_neg none, if_neg (by omega), sign, units, ← neg_ofFraction]
        exact .neg _

theorem zero_add_zero (s t : Bool) : zero s + zero t = zero (s && t) := by
  simp [zero, finite_add_finite, signed_zero]

theorem zero_add_finite {n : Nat} {hn : Representable n} (nonzero : n ≠ 0) :
    zero s + finite t n hn = finite t n hn := by
  have units : signed t n ≠ 0 := by
    cases t <;> simpa [signed] using nonzero
  have sum (s : Bool) : zero s + finite t n hn =
      ofFraction (signed t n < 0) (signed t n).natAbs 1 := by
    rw [zero, finite_add_finite, signed_zero, Int.zero_add, if_neg units]
  rw [sum s, ← sum true, zero_true_add]

theorem opposite_zero_add (s t : Bool) (a : Binary64) : Opposite (zero s + a) (zero t + -a) := by
  cases a with
  | nan => exact .neg nan
  | infinite u => exact .neg (infinite u)
  | finite u n hn =>
    rw [neg_finite]
    by_cases none : n = 0
    · subst none
      show Opposite (zero s + zero u) (zero t + zero !u)
      rw [zero_add_zero, zero_add_zero]
      exact .zeros _ _
    · rw [zero_add_finite none, zero_add_finite none]
      exact .neg (finite u n hn)

theorem Opposite.add (h : Opposite x y) (h' : Opposite a b) : Opposite (x + a) (y + b) := by
  cases h with
  | neg x =>
    cases h' with
    | neg a => exact opposite_add_neg x a
    | zeros s t =>
      rw [Binary64.add_comm x, Binary64.add_comm (-x)]
      exact opposite_zero_add s t x
  | zeros s t =>
    cases h' with
    | neg a => exact opposite_zero_add s t a
    | zeros s' t' =>
      rw [zero_add_zero, zero_add_zero]
      exact .zeros _ _

theorem Opposite.sub (h : Opposite x y) (h' : Opposite a b) : Opposite (x - a) (y - b) :=
  h.add h'.neg_neg

theorem Opposite.div (h : Opposite x y) (z : Binary64) : Opposite (x / z) (y / z) := by
  cases h with
  | neg x =>
    suffices e : -x / z = -(x / z) by
      rw [e]
      exact .neg _
    cases x with
    | nan => rfl
    | infinite s =>
      cases z with
      | nan => rfl
      | infinite u => rfl
      | finite u k =>
        rw [neg_infinite, infinite_div_finite, infinite_div_finite, neg_infinite, Bool.not_xor]
    | finite s m =>
      cases z with
      | nan => rfl
      | infinite u =>
        exact congrArg zero (Bool.not_xor s u)
      | finite u k =>
        rw [neg_finite]
        by_cases none : k = 0
        · subst none
          rw [finite_div_zero, finite_div_zero]
          split
          · rfl
          · rw [neg_infinite, Bool.not_xor]
        · rw [finite_div_finite none, finite_div_finite none, neg_ofFraction, Bool.not_xor]
  | zeros s t =>
    cases z with
    | nan => exact .neg nan
    | infinite u => exact .zeros _ _
    | finite u k =>
      by_cases none : k = 0
      · subst none
        exact .neg nan
      · rw [zero, zero, finite_div_finite none, finite_div_finite none, Nat.zero_mul,
          ofFraction_zero, ofFraction_zero]
        exact .zeros _ _

theorem Opposite.mul_self (h : Opposite x y) : y * y = x * x := by
  cases h with
  | neg x =>
    cases x with
    | nan => rfl
    | infinite s =>
      rw [neg_infinite, infinite_mul_infinite, infinite_mul_infinite, Bool.xor_self, Bool.xor_self]
    | finite s m =>
      rw [neg_finite, finite_mul_finite, finite_mul_finite, Bool.xor_self, Bool.xor_self]
  | zeros s t =>
    rw [zero, zero, finite_mul_finite, finite_mul_finite, Bool.xor_self, Bool.xor_self]

end Binary64

/-! ## Series -/

open Binary64

variable {series : Array Binary64}

/-- The series with the sign of every value changed. -/
def reflect (series : Array Binary64) : Array Binary64 := series.map (- ·)

@[simp] theorem size_reflect (series : Array Binary64) : (reflect series).size = series.size :=
  Array.size_map

theorem opposite_foldl (values : List Binary64) {start start' : Binary64}
    (h : Opposite start start') :
    Opposite (values.foldl (· + ·) start) ((values.map (- ·)).foldl (· + ·) start') := by
  induction values generalizing start start' with
  | nil => exact h
  | cons x rest ih => exact ih (h.add (.neg x))

/-- **The sums are opposite**: both start from the negative zero, which is opposite to itself. -/
theorem opposite_sum (series : Array Binary64) : Opposite (sum series) (sum (reflect series)) := by
  rw [sum_eq_foldl, sum_eq_foldl, reflect, Array.toList_map]
  exact opposite_foldl _ (.zeros true true)

theorem opposite_mean (series : Array Binary64) : Opposite (mean series) (mean (reflect series)) := by
  unfold mean
  rw [size_reflect]
  exact (opposite_sum series).div _

/-- **The deviations are the same**, as the squares are. -/
theorem deviation_reflect (series : Array Binary64) {center center' : Binary64}
    (h : Opposite center center') : deviation (reflect series) center' = deviation series center := by
  have squares (x : Binary64) : (-x - center') * (-x - center') = (x - center) * (x - center) :=
    ((Opposite.neg x).sub h).mul_self
  unfold deviation
  rw [size_reflect]
  simp only [reflect, Array.map_map, Function.comp_def, squares]

/-! ## Summaries -/

/-- The column with the sign of every value changed. -/
def Column.reflect (column : Column) : Column :=
  { column with values := ColumnStats.reflect column.values }

/-- **A reflected column is summarized like the column itself.** Both are refused with the same fault,
or both have the same label and half-width, and opposite means. -/
theorem reflected_column_is_summarized (column : Column) (rows : Nat) (z : Binary64) :
    (∃ fault, column.summary rows z = .error fault ∧ column.reflect.summary rows z = .error fault) ∨
    ∃ summary reflected, column.summary rows z = .ok summary ∧
      column.reflect.summary rows z = .ok reflected ∧
      reflected.label = summary.label ∧ reflected.halfWidth = summary.halfWidth ∧
      (reflected.mean = -summary.mean ∨
        ∃ s t, summary.mean = .zero s ∧ reflected.mean = .zero t) := by
  have size : column.reflect.values.size = column.values.size := size_reflect column.values
  by_cases few : column.values.size < 2 ∨ rows = 0
  · left
    refine ⟨.tooFew column.label column.values.size, if_pos few, ?_⟩
    rw [Column.summary, size, if_pos few]
    rfl
  · right
    have means := opposite_mean column.values
    refine ⟨_, _, if_neg few, if_neg (by rwa [size]), rfl, ?_, ?_⟩
    · exact congrArg (· / (Binary64.ofNat rows).sqrt * z) (deviation_reflect column.values means)
    · exact means.eq_or

end ColumnStats
