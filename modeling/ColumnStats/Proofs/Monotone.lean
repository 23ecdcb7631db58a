import ColumnStats.Proofs.NonFinite
import ColumnStats.Proofs.Roots
import ColumnStats.Settings

/-!
# Monotone arithmetic

Rounding keeps the order of exact results, and with it do the operations on numbers without a sign.

* `AtMost`: the order of numbers, with infinity as the largest; `atMost_iff_toRat_le`: on finite
  numbers it is that of their values;
* `roundUnits_mono`, `atMost_ofFraction`: **a greater fraction is rounded to no less**, overflow
  included;
* `atMost_ofNat`, `IsPositive.sqrt_mono`, `IsUnsigned.div_mono`, `IsUnsigned.mul_mono`: the steps from
  a deviation to a half-width;
* `half_width_is_monotone`: **more rows or a smaller factor make the interval no wider**.
-/

namespace ColumnStats

theorem roundUnits_mono {num den num' den' : Nat} (positive : 0 < den) (positive' : 0 < den')
    (le : num * den' ≤ num' * den) : roundUnits num den ≤ roundUnits num' den' := by
  apply (isNearestCount_roundUnits positive num).mono (isNearestCount_roundUnits positive' num')
  rw [div_le_div_iff₀ (by exact_mod_cast positive) (by exact_mod_cast positive')]
  exact_mod_cast le

namespace Binary64

variable {x y z : Binary64}

/-! ## Order -/

/-- The first number is no greater than the second. Infinities are beyond all finite numbers, and
NaN is not compared. -/
def AtMost (x y : Binary64) : Prop := ∃ a ∈ x.rank?, ∃ b ∈ y.rank?, a ≤ b

theorem atMost_iff : AtMost x y ↔ x.lt y ∨ x.eqv y := by
  unfold AtMost lt eqv
  cases x.rank? with
  | none => simp
  | some a =>
    cases y.rank? with
    | none => simp
    | some b => simp [le_iff_lt_or_eq]

theorem exists_rank?_eq (number : x ≠ nan) : ∃ a, x.rank? = some a := by
  cases x with
  | nan => exact absurd rfl number
  | infinite s => exact ⟨_, rfl⟩
  | finite s m => exact ⟨_, rfl⟩

theorem atMost_of_not_lt (number : x ≠ nan) (number' : y ≠ nan) (above : ¬ x.lt y) : AtMost y x := by
  obtain ⟨a, ha⟩ := exists_rank?_eq number
  obtain ⟨b, hb⟩ := exists_rank?_eq number'
  refine ⟨b, hb, a, ha, ?_⟩
  simpa [lt, ha, hb] using above

section Units

variable {s t : Bool} {m n : Nat} {hm : Representable m} {hn : Representable n}

theorem rank?_finite : (finite s m hm).rank? = some (signed s m) := rfl

theorem rank?_infinite : (infinite s).rank? = some (signed s overflowUnits) := rfl

theorem atMost_finite : AtMost (finite s m hm) (finite t n hn) ↔ signed s m ≤ signed t n := by
  simp [AtMost, rank?_finite]

theorem atMost_self (number : x ≠ nan) : AtMost x x := by
  obtain ⟨a, ha⟩ := exists_rank?_eq number
  exact ⟨a, ha, a, ha, le_refl a⟩

theorem atMost_iff_toRat_le (finite : x.isFinite) (finite' : y.isFinite) :
    AtMost x y ↔ x.toRat ≤ y.toRat := by
  obtain ⟨s, m, hm, rfl⟩ := exists_units_of_isFinite finite
  obtain ⟨t, n, hn, rfl⟩ := exists_units_of_isFinite finite'
  rw [atMost_finite, toRat_finite, toRat_finite, div_le_div_iff_of_pos_right unitsPerOne_pos,
    Int.cast_le]

theorem atMost_infinite (number : x ≠ nan) : AtMost x (infinite false) := by
  cases x with
  | nan => exact absurd rfl number
  | infinite s =>
    refine ⟨_, rank?_infinite, _, rank?_infinite, ?_⟩
    cases s <;> simp only [signed, if_true, if_false, Bool.false_eq_true] <;> omega
  | finite s m hm =>
    have below := hm.2
    refine ⟨_, rank?_finite, _, rank?_infinite, ?_⟩
    cases s <;> simp only [signed, if_true, if_false, Bool.false_eq_true] <;> omega

theorem not_infinite_atMost_finite : ¬ AtMost (infinite false) (finite t n hn) := by
  rintro ⟨a, ha, b, hb, le⟩
  have below := hn.2
  rw [rank?_infinite, Option.mem_some_iff] at ha
  rw [rank?_finite, Option.mem_some_iff] at hb
  cases t <;> simp only [signed, if_true, if_false, Bool.false_eq_true] at ha hb <;> omega

end Units

theorem IsUnsigned.atMost_cases (hx : x.IsUnsigned) (hy : y.IsUnsigned) (le : AtMost x y) :
    y = infinite false ∨ ∃ m hm n hn, x = finite false m hm ∧ y = finite false n hn ∧ m ≤ n := by
  rcases hy.eq_or with rfl | ⟨n, hn, rfl⟩
  · exact Or.inl rfl
  · rcases hx.eq_or with rfl | ⟨m, hm, rfl⟩
    · exact absurd le not_infinite_atMost_finite
    · exact Or.inr ⟨m, hm, n, hn, rfl, rfl, by simpa [signed] using atMost_finite.1 le⟩

theorem IsPositive.atMost_units (hx : x.IsPositive) (hy : y.IsPositive) (le : AtMost x y) :
    ∃ m hm n hn, x = finite false m hm ∧ y = finite false n hn ∧ m ≤ n ∧ m ≠ 0 ∧ n ≠ 0 := by
  obtain ⟨m, hm, rfl, hm0⟩ := hx.exists_units
  obtain ⟨n, hn, rfl, hn0⟩ := hy.exists_units
  exact ⟨m, hm, n, hn, rfl, rfl, by simpa [signed] using atMost_finite.1 le, hm0, hn0⟩

/-! ## Operations -/

/-- **A greater fraction is rounded to no less**, also where it overflows. -/
theorem atMost_ofFraction {num den num' den' : Nat} (positive : 0 < den) (positive' : 0 < den')
    (le : num * den' ≤ num' * den) :
    AtMost (ofFraction false num den) (ofFraction false num' den') := by
  have mono := roundUnits_mono positive positive' le
  rcases Nat.lt_or_ge (roundUnits num' den') overflowUnits with small | large
  · obtain ⟨hn, e⟩ := ofFraction_of_lt small false
    obtain ⟨hm, e'⟩ := ofFraction_of_lt (mono.trans_lt small) false
    rw [e, e', atMost_finite]
    simpa [signed] using mono
  · rw [ofFraction_of_le large]
    exact atMost_infinite (ofFraction_ne_nan _ _ _)

theorem atMost_ofNat {m n : Nat} (le : m ≤ n) : AtMost (ofNat m) (ofNat n) := by
  unfold ofNat ofRatio
  apply atMost_ofFraction Nat.one_pos Nat.one_pos
  exact Nat.mul_le_mul_right _ (Nat.mul_le_mul_right _ le)

theorem IsPositive.sqrt_mono (hx : x.IsPositive) (hy : y.IsPositive) (le : AtMost x y) :
    AtMost x.sqrt y.sqrt := by
  obtain ⟨m, hm, n, hn, rfl, rfl, units, hm0, hn0⟩ := hx.atMost_units hy le
  rw [sqrt_finite, sqrt_finite, if_neg hm0, if_neg hn0, if_neg Bool.false_ne_true,
    if_neg Bool.false_ne_true, sqrtUnits_eq, sqrtUnits_eq]
  apply atMost_ofFraction Nat.two_pos Nat.two_pos
  exact Nat.mul_le_mul_right _ (twiceSqrt_mono (Nat.mul_le_mul_right _ units))

theorem IsUnsigned.div_mono {x' y' : Binary64} (hx : x.IsUnsigned) (hx' : x'.IsUnsigned)
    (hy : y.IsPositive) (hy' : y'.IsPositive) (le : AtMost x x') (ge : AtMost y' y) :
    AtMost (x / y) (x' / y') := by
  obtain ⟨n', hn', n, hn, rfl, rfl, divisors, hn'0, hn0⟩ := hy'.atMost_units hy ge
  rcases hx.atMost_cases hx' le with rfl | ⟨m, hm, m', hm', rfl, rfl, dividends⟩
  · rw [infinite_div_finite]
    exact atMost_infinite (hx.div hy).ne_nan
  · rw [finite_div_finite hn0, finite_div_finite hn'0]
    apply atMost_ofFraction (Nat.pos_of_ne_zero hn0) (Nat.pos_of_ne_zero hn'0)
    exact Nat.mul_le_mul (Nat.mul_le_mul_right _ dividends) divisors

theorem IsUnsigned.mul_mono {x' z' : Binary64} (hx : x.IsUnsigned) (hx' : x'.IsUnsigned)
    (hz : z.IsPositive) (hz' : z'.IsPositive) (le : AtMost x x') (le' : AtMost z z') :
    AtMost (x * z) (x' * z') := by
  obtain ⟨n, hn, n', hn', rfl, rfl, factors, -, hn'0⟩ := hz.atMost_units hz' le'
  rcases hx.atMost_cases hx' le with rfl | ⟨m, hm, m', hm', rfl, rfl, units⟩
  · rw [infinite_mul_finite, if_neg hn'0]
    exact atMost_infinite (hx.mul hz).ne_nan
  · rw [finite_mul_finite, finite_mul_finite]
    have one : 0 < unitsPerOne := Nat.cast_pos.1 unitsPerOne_pos
    apply atMost_ofFraction one one
    exact Nat.mul_le_mul_right _ (Nat.mul_le_mul units factors)

end Binary64

/-! ## Half-widths -/

open Binary64

/-- **More rows or a smaller factor make the interval no wider**, and leave the mean as it is. Values
and rows are counted by words of 64 bits. -/
theorem half_width_is_monotone {column : Column} {rows rows' : Nat} {z z' : Binary64}
    (enough : 2 ≤ column.values.size) (small : column.values.size < 2 ^ 64)
    (finite : ∀ x ∈ column.values, x.isFinite) (positive : 1 ≤ rows) (more : rows ≤ rows')
    (few : rows' < 2 ^ 64) (factor : z.IsPositive) (factor' : z'.isFinite)
    (less : z.toRat ≤ z'.toRat) :
    ∃ narrow wide, column.summary rows' z = .ok narrow ∧ column.summary rows z' = .ok wide ∧
      (narrow.halfWidth.lt wide.halfWidth ∨ narrow.halfWidth.eqv wide.halfWidth) ∧
      narrow.mean = wide.mean := by
  have factor' : z'.IsPositive := ⟨factor', factor.pos.trans_le less⟩
  have count := @isBetween_ofNat 1 rows (by decide) positive (by omega)
  have count' := @isBetween_ofNat 1 rows' (by decide) (by omega) few.le
  have root := count.sqrt.isPositive Nat.one_pos
  have root' := count'.sqrt.isPositive Nat.one_pos
  have roots : AtMost (Binary64.ofNat rows).sqrt (Binary64.ofNat rows').sqrt :=
    (count.isPositive Nat.one_pos).sqrt_mono (count'.isPositive Nat.one_pos) (atMost_ofNat more)
  have unsigned := isUnsigned_deviation finite enough small
  have errors := unsigned.div_mono unsigned root' root (atMost_self unsigned.ne_nan) roots
  have factors := (atMost_iff_toRat_le factor.isFinite factor'.isFinite).2 less
  refine ⟨_, _, Column.summary_of_enough enough (positive.trans more) z,
    Column.summary_of_enough enough positive z', ?_, rfl⟩
  apply atMost_iff.1
  exact (unsigned.div root').mul_mono (unsigned.div root) factor factor' errors factors

/-- A count of rows that is rounded itself, and a factor below one. -/
theorem many_rows_narrow_the_interval :
    let column : Column := ⟨"a", #[.ofNat 1, .ofNat 4]⟩
    (Binary64.ofRatio 1 2).IsPositive ∧ factor95.isFinite ∧
      (Binary64.ofRatio 1 2).toRat ≤ factor95.toRat ∧
      ∃ narrow wide, column.summary (2 ^ 60 + 1) (.ofRatio 1 2) = .ok narrow ∧
        column.summary 2 factor95 = .ok wide ∧
        (narrow.halfWidth.lt wide.halfWidth ∨ narrow.halfWidth.eqv wide.halfWidth) ∧
        narrow.mean = wide.mean := by
  intro column
  have factor : (Binary64.ofRatio 1 2).IsPositive := ⟨by decide +kernel, by decide +kernel⟩
  have finite : factor95.isFinite := by decide +kernel
  have less : (Binary64.ofRatio 1 2).toRat ≤ factor95.toRat := by decide +kernel
  have values : ∀ x ∈ column.values, x.isFinite := by decide +kernel
  exact ⟨factor, finite, less, half_width_is_monotone (by decide) (by decide) values (by decide)
    (by decide) (by decide) factor finite less⟩

end ColumnStats
