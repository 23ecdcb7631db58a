import ColumnStats.Proofs.Editions
import ColumnStats.Proofs.Exactness
import ColumnStats.Proofs.Monotone

/-!
# Bands of noise

A field of a sample is drawn in four rounded steps: a fraction is stretched, shifted, added to the
centre of its column and printed. Each step keeps the order, so that the bounds of a band are kept by
all of them.

* `fixed_between`: a number between two whole numbers is printed as a decimal between them;
* `IsFraction`, `isFraction_fraction`: what is stretched, a multiple of `2 ^ -52` below one;
* `Fits`, `fits_scale`: **the stretch of an interval keeps the greatest fraction in place**;
* `Fits.place_between`: and with it every other fraction;
* `InBand`: a printed field within the spread of its column;
* `sampled_fields_are_in_band`: **every field of a sample is in its band**.
-/

namespace ColumnStats

-- powers are those of the core library
attribute [local instance (2000)] instPowNat

open Binary64

/-! ## Printing -/

/-- **A number between two whole numbers is printed as a decimal between them**, and without a sign
where they are above zero. -/
theorem fixed_between {places low high : Nat} {x : Binary64} (positive : 0 < places)
    (unsigned : 0 < low) (finite : x.isFinite) (above : low ≤ x.toRat) (below : x.toRat ≤ high) :
    ∃ whole fraction, x.fixed places = whole ++ '.' :: fraction ∧ IsWhole whole ∧
      Numeral.IsDigits fraction ∧ fraction.length = places ∧
      low ≤ pointedValue whole fraction ∧ pointedValue whole fraction ≤ high := by
  have one : 0 < unitsPerOne := Nat.cast_pos.1 unitsPerOne_pos
  have ten : (0 : ℚ) < 10 ^ places := by positivity
  have isPositive : x.IsPositive := ⟨finite, (Nat.cast_pos.2 unsigned).trans_le above⟩
  obtain ⟨units, representable, rfl, -⟩ := isPositive.exists_units
  have above : (low : ℚ) ≤ units / unitsPerOne := above
  have below : (units / unitsPerOne : ℚ) ≤ high := below
  rw [le_div_iff₀ unitsPerOne_pos] at above
  rw [div_le_iff₀ unitsPerOne_pos] at below
  have above : low * unitsPerOne ≤ units := by exact_mod_cast above
  have below : units ≤ high * unitsPerOne := by exact_mod_cast below
  obtain ⟨whole, fraction, e, parts⟩ := Decimal.exists_parts positive
    (nearestEven (units * 10 ^ places) unitsPerOne)
  have lower : low * 10 ^ places ≤ nearestEven (units * 10 ^ places) unitsPerOne := by
    refine le_trans ?_ (div_le_nearestEven _ _)
    rw [Nat.le_div_iff_mul_le one, Nat.mul_right_comm]
    exact Nat.mul_le_mul_right _ above
  have upper : nearestEven (units * 10 ^ places) unitsPerOne ≤ high * 10 ^ places := by
    apply nearestEven_le
    rw [Nat.mul_right_comm]
    exact Nat.mul_le_mul_right _ below
  refine ⟨whole, fraction, e, parts.isWhole, parts.isDigits, parts.length_eq, ?_, ?_⟩
  · rw [parts.value_eq, le_div_iff₀ ten]
    exact_mod_cast lower
  · rw [parts.value_eq, div_le_iff₀ ten]
    exact_mod_cast upper

/-! ## Draws -/

namespace Uniform

variable {spread scale x : Binary64}

/-- A multiple of `2 ^ -52` below one. -/
structure IsFraction (x : Binary64) : Prop where
  isFinite : x.isFinite
  toRat_eq : ∃ k : Nat, k < 2 ^ (52 : Nat) ∧ x.toRat = k / 2 ^ 52

theorem exists_fractionStep_eq :
    ∃ e : Nat, fractionStep = 2 ^ e ∧ unitsPerOne = 2 ^ (52 : Nat) * 2 ^ e := by
  obtain ⟨e, exponent⟩ : ∃ e, e = 1022 := ⟨1022, rfl⟩
  refine ⟨e, by rw [fractionStep, exponent], ?_⟩
  rw [unitsPerOne]
  exact @two_pow_eq_mul 1074 52 e (by omega)

theorem toRat_ofFraction {k : Nat} (below : k < 2 ^ (52 : Nat)) :
    (ofFraction false (k * fractionStep) 1).isFinite ∧
      (ofFraction false (k * fractionStep) 1).toRat = k / 2 ^ 52 := by
  obtain ⟨e, step, one⟩ := exists_fractionStep_eq
  have short : k * 2 ^ e < unitsPerOne := by
    rw [one]
    exact Nat.mul_lt_mul_of_pos_right below (Nat.two_pow_pos e)
  have last : Representable unitsPerOne := by
    have representable := representable_mul_unitsPerOne (n := 1) (k := 0) (by decide) (by decide)
    rwa [Nat.pow_zero, Nat.mul_one, Nat.one_mul] at representable
  rw [step, ofFraction_units false ⟨two_pow_ulpExponent_dvd (by omega), short.trans last.2⟩]
  refine ⟨rfl, ?_⟩
  change ((k * 2 ^ e : Nat) / unitsPerOne : ℚ) = k / 2 ^ 52
  have nonzero : ((2 ^ e : Nat) : ℚ) ≠ 0 := Nat.cast_ne_zero.2 (Nat.two_pow_pos e).ne'
  rw [one, Nat.cast_mul, Nat.cast_mul, mul_div_mul_right _ _ nonzero, Nat.cast_pow, Nat.cast_ofNat]

theorem isFraction_fraction (word : UInt64) : IsFraction (fraction word) := by
  have below : (word >>> 12).toNat < 2 ^ (52 : Nat) := by
    have := word.toNat_lt
    rw [UInt64.toNat_shiftRight, Nat.shiftRight_eq_div_pow]
    change word.toNat / 2 ^ (12 : Nat) < _
    omega
  obtain ⟨finite, value⟩ := toRat_ofFraction below
  exact ⟨finite, _, below, value⟩

theorem isFinite_maxFraction : maxFraction.isFinite := (toRat_ofFraction (by decide)).1

theorem toRat_maxFraction : maxFraction.toRat = (2 ^ (52 : Nat) - 1 : Nat) / 2 ^ 52 :=
  (toRat_ofFraction (by decide)).2

theorem isFraction_maxFraction : IsFraction maxFraction :=
  ⟨isFinite_maxFraction, _, by decide, toRat_maxFraction⟩

theorem isPositive_maxFraction : maxFraction.IsPositive where
  isFinite := isFinite_maxFraction
  pos := by
    rw [toRat_maxFraction]
    exact div_pos (Nat.cast_pos.2 (by decide)) (by norm_num)

theorem IsFraction.nonneg (h : IsFraction x) : 0 ≤ x.toRat := by
  obtain ⟨-, k, -, value⟩ := h
  rw [value]
  positivity

theorem IsFraction.lt_one (h : IsFraction x) : x.toRat < 1 := by
  obtain ⟨-, k, below, value⟩ := h
  rw [value, div_lt_one (by norm_num)]
  exact_mod_cast below

theorem IsFraction.toRat_le (h : IsFraction x) : x.toRat ≤ maxFraction.toRat := by
  obtain ⟨-, k, below, value⟩ := h
  have below : (k : ℚ) ≤ (2 ^ (52 : Nat) - 1 : Nat) := Nat.cast_le.2 (by omega)
  rw [value, toRat_maxFraction]
  exact div_le_div_of_nonneg_right below (by norm_num)

/-! ## Stretches -/

/-- The stretch has no sign, and keeps the greatest fraction in place. -/
structure Fits (spread scale : Binary64) : Prop where
  nonneg : AtMost (zero false) scale
  fits : AtMost (place spread scale maxFraction) spread

section Place

variable (h : IsFraction x) (finite : scale.isFinite) (nonneg : 0 ≤ scale.toRat)
include h finite nonneg

theorem IsFraction.mul_bounds : (x * scale).isFinite ∧ 0 ≤ (x * scale).toRat := by
  have below : x.toRat * scale.toRat ≤ scale.toRat := mul_le_of_le_one_left nonneg h.lt_one.le
  obtain ⟨isFinite, above, -⟩ :=
    (isNearestTo_mul h.isFinite finite).between_zero finite (mul_nonneg h.nonneg nonneg) below
  exact ⟨isFinite, above⟩

theorem IsFraction.place_bounds (finite' : spread.isFinite) (nonneg' : 0 ≤ spread.toRat) :
    (place spread scale x).isFinite ∧ -spread.toRat ≤ (place spread scale x).toRat ∧
      (place spread scale x).toRat ≤ (x * scale).toRat := by
  obtain ⟨isFinite, above⟩ := h.mul_bounds finite nonneg
  have shifted := isNearestTo_add isFinite (isFinite_neg finite')
  rw [toRat_neg finite'] at shifted
  have lower : (-spread).toRat ≤ (x * scale).toRat + -spread.toRat := by
    rw [toRat_neg finite']
    exact le_add_of_nonneg_left above
  have upper : (x * scale).toRat + -spread.toRat ≤ (x * scale).toRat :=
    add_le_of_nonpos_right (neg_nonpos.2 nonneg')
  have bounds := shifted.between (isFinite_neg finite') isFinite lower upper
  rwa [toRat_neg finite'] at bounds

end Place

theorem place_infinite (finite : spread.isFinite) :
    place spread (infinite false) maxFraction = infinite false := by
  obtain ⟨s, m, hm, rfl⟩ := exists_units_of_isFinite finite
  obtain ⟨n, hn, e, nonzero⟩ := isPositive_maxFraction.exists_units
  rw [place, e, Binary64.mul_comm, infinite_mul_finite, if_neg nonzero]
  rfl

theorem Fits.isFinite (h : Fits spread scale) (finite : spread.isFinite) : scale.isFinite := by
  obtain ⟨a, zero, b, rank, le⟩ := h.nonneg
  cases scale with
  | nan => cases rank
  | finite s m hm => rfl
  | infinite s =>
    cases s with
    | false =>
      have fits := h.fits
      obtain ⟨t, n, hn, rfl⟩ := exists_units_of_isFinite finite
      rw [place_infinite rfl] at fits
      exact absurd fits not_infinite_atMost_finite
    | true =>
      obtain rfl : 0 = a := Option.some_inj.1 zero
      obtain rfl : -(overflowUnits : ℤ) = b := Option.some_inj.1 rank
      have := overflowUnits_pos
      omega

/-- **With a stretch that fits, every fraction is placed within the interval.** -/
theorem Fits.place_between (h : Fits spread scale) (hx : IsFraction x) (finite : spread.isFinite)
    (nonneg : 0 ≤ spread.toRat) : (place spread scale x).isFinite ∧
      -spread.toRat ≤ (place spread scale x).toRat ∧
      (place spread scale x).toRat ≤ spread.toRat := by
  have isFinite := h.isFinite finite
  have unsigned : 0 ≤ scale.toRat := by
    have above := (atMost_iff_toRat_le rfl isFinite).1 h.nonneg
    rwa [(isInteger_zero false).toRat_eq, Int.cast_zero] at above
  obtain ⟨placed, lower, -⟩ := hx.place_bounds isFinite unsigned finite nonneg
  obtain ⟨last, -, -⟩ := isFraction_maxFraction.place_bounds isFinite unsigned finite nonneg
  have upper := (atMost_iff_toRat_le last finite).1 h.fits
  have stretched := toRat_mul_mono hx.isFinite isFinite_maxFraction isFinite unsigned
    (hx.mul_bounds isFinite unsigned).1 (isFraction_maxFraction.mul_bounds isFinite unsigned).1
    hx.toRat_le
  have shifted := toRat_add_mono (hx.mul_bounds isFinite unsigned).1
    (isFraction_maxFraction.mul_bounds isFinite unsigned).1 (isFinite_neg finite) placed last stretched
  exact ⟨placed, lower, shifted.trans upper⟩

/-! ## The search for a stretch -/

/-- The search ends with no units, or with a stretch for which the greatest fraction is not beyond
the interval. -/
theorem exists_fitScale_eq (spread : Binary64) (units : Nat) : ∃ last,
    fitScale spread units = ofFraction false last 1 ∧
      (last = 0 ∨ ¬ spread.lt (place spread (ofFraction false last 1) maxFraction)) := by
  fun_induction fitScale spread units with
  | case1 units scale more ih => exact ih
  | case2 units scale done =>
    refine ⟨units, rfl, ?_⟩
    rw [not_and_or, Nat.pos_iff_ne_zero, not_not] at done
    exact done

theorem place_ne_nan (finite : spread.isFinite) (number : scale ≠ nan) :
    place spread scale maxFraction ≠ nan := by
  rw [place, Binary64.mul_comm]
  exact add_ne_nan (mul_ne_nan number isFinite_maxFraction isPositive_maxFraction.pos.ne')
    (isFinite_neg finite)

theorem fits_fitScale (finite : spread.isFinite) (nonneg : 0 ≤ spread.toRat) (units : Nat) :
    Fits spread (fitScale spread units) := by
  obtain ⟨last, e, ended⟩ := exists_fitScale_eq spread units
  rw [e]
  refine ⟨?_, ?_⟩
  · rw [← ofFraction_zero false 1]
    exact atMost_ofFraction Nat.one_pos Nat.one_pos (by omega)
  · rcases ended with rfl | done
    · -- with no stretch, all fractions are placed below zero
      have none := isInteger_zero false
      obtain ⟨placed, -, upper⟩ := isFraction_maxFraction.place_bounds none.isFinite
        (by rw [none.toRat_eq, Int.cast_zero]) finite nonneg
      rw [toRat_mul_of_eq_zero isFinite_maxFraction none.isFinite
        (by rw [none.toRat_eq, Int.cast_zero, mul_zero])] at upper
      rw [ofFraction_zero]
      exact (atMost_iff_toRat_le placed finite).2 (upper.trans nonneg)
    · have placed := place_ne_nan finite (ofFraction_ne_nan false last 1)
      exact atMost_of_not_lt (ne_nan_of_isFinite finite) placed done

/-- **The stretch of an interval fits**, unless its width overflows. -/
theorem fits_scale (finite : spread.isFinite) (nonneg : 0 ≤ spread.toRat)
    (width : ((spread - -spread) / maxFraction).isFinite) : Fits spread (Uniform.scale spread) := by
  obtain ⟨s, m, hm, e⟩ := exists_units_of_isFinite width
  rw [Uniform.scale, e]
  exact fits_fitScale finite nonneg m

end Uniform

/-! ## Fields -/

namespace Sample

/-- The field is a decimal with three places, within the spread around the centre of its column. -/
def InBand (column : Series) (field : List Char) : Prop :=
  ∃ whole fraction, field = whole ++ '.' :: fraction ∧ IsWhole whole ∧
    Numeral.IsDigits fraction ∧ fraction.length = 3 ∧
    (column.centre - column.spread : ℚ) ≤ pointedValue whole fraction ∧
    pointedValue whole fraction ≤ column.centre + column.spread

variable {column : Series} {scale x : Binary64}

/-- **A fraction stretched, shifted, added to the centre and printed is in the band.** -/
theorem inBand_of_fits (positive : column.spread < column.centre)
    (short : column.centre + column.spread ≤ 2 ^ (53 : Nat))
    (fits : Uniform.Fits (.ofNat column.spread) scale) (isFraction : Uniform.IsFraction x) :
    InBand column
      ((.ofNat column.centre + Uniform.place (.ofNat column.spread) scale x).fixed places) := by
  have centre := @isInteger_ofNat column.centre (by omega)
  have spread := @isInteger_ofNat column.spread (by omega)
  have low := @isInteger_ofNat (column.centre - column.spread) (by omega)
  have high := @isInteger_ofNat (column.centre + column.spread) short
  obtain ⟨placed, above, below⟩ :=
    fits.place_between isFraction spread.isFinite (spread.toRat_nonneg (Int.natCast_nonneg _))
  have added := isNearestTo_add centre.isFinite placed
  have difference : ((column.centre - column.spread : Nat) : ℚ) = column.centre - column.spread :=
    Nat.cast_sub positive.le
  have total : ((column.centre + column.spread : Nat) : ℚ) = column.centre + column.spread :=
    Nat.cast_add _ _
  have lowest := low.toRat_eq
  have highest := high.toRat_eq
  rw [Int.cast_natCast] at lowest highest
  rw [centre.toRat_eq, Int.cast_natCast] at added
  rw [spread.toRat_eq, Int.cast_natCast] at above below
  obtain ⟨isFinite, lower, upper⟩ := added.between low.isFinite high.isFinite
    (by rw [lowest, difference]; linarith) (by rw [highest, total]; linarith)
  rw [lowest] at lower
  rw [highest] at upper
  have printed := @fixed_between places _ _ _ (by decide) (by omega) isFinite lower upper
  rwa [difference, total] at printed

theorem fits_of_mem_series (mem : column ∈ series) : column.spread < column.centre ∧
    column.centre + column.spread ≤ 2 ^ (53 : Nat) ∧
    ((ofNat column.spread - -ofNat column.spread) / Uniform.maxFraction).isFinite := by
  revert column
  decide +kernel

theorem inBand_field (mem : column ∈ series) (word : UInt64) :
    InBand column (column.field word).toList := by
  obtain ⟨positive, short, width⟩ := fits_of_mem_series mem
  have spread := @isInteger_ofNat column.spread (by omega)
  have fits := Uniform.fits_scale spread.isFinite (spread.toRat_nonneg (Int.natCast_nonneg _)) width
  rw [Series.field, String.toList_ofList]
  exact inBand_of_fits positive short fits (Uniform.isFraction_fraction word)

theorem forall₂_inBand_row (index : Nat) :
    List.Forall₂ InBand series ((row index).map String.toList) := by
  have drawn := forall₂_drawFields series (streamAt index)
  rw [List.forall₂_map_right_iff]
  refine ((List.forall₂_and_left _ _).2 ⟨fun _ mem => mem, drawn⟩).imp ?_
  rintro column _ ⟨mem, word, rfl⟩
  exact inBand_field mem word

end Sample

/-! ## The command -/

namespace Command

open Sample

/-- **Every field of a sample is in the band of its column**, for each stretch that fits and each
fraction, and so for all rows that are written. -/
theorem sampled_fields_are_in_band :
    (∀ column ∈ series, ∀ scale fraction, Uniform.Fits (.ofNat column.spread) scale →
      Uniform.IsFraction fraction → InBand column
        ((.ofNat column.centre + Uniform.place (.ofNat column.spread) scale fraction).fixed places)) ∧
    ∀ count < countLimit, ∃ rows, rows.length = count ∧
      (∀ row ∈ rows, List.Forall₂ InBand series row) ∧
      (sampled "valid" count).stdout = plain ',' (header :: rows) := by
  refine ⟨fun column mem scale fraction fits isFraction => ?_, fun count small => ?_⟩
  · obtain ⟨positive, short, -⟩ := fits_of_mem_series mem
    exact inBand_of_fits positive short fits isFraction
  · refine ⟨noise (List.range count), ?_, ?_, ?_⟩
    · rw [length_noise, List.length_range]
    · rw [noise, List.forall_mem_map, List.forall_mem_map]
      exact fun index _ => forall₂_inBand_row index
    · rw [← lineFields_valid]
      exact @stdout_sampled "valid" .valid count rfl small (by decide)

/-- The greatest fraction with a stretch of twice the spread, and the largest sample. -/
theorem greatest_draw_is_in_band :
    let column : Series := ⟨"solve_ms", 120, 25⟩
    column ∈ series ∧ Uniform.Fits (.ofNat 25) (.ofNat 50) ∧
      Uniform.IsFraction Uniform.maxFraction ∧
      InBand column
        ((.ofNat 120 + Uniform.place (.ofNat 25) (.ofNat 50) Uniform.maxFraction).fixed places) ∧
      countLimit - 1 < countLimit ∧ ∃ rows, rows.length = countLimit - 1 ∧
        (∀ row ∈ rows, List.Forall₂ InBand series row) ∧
        (sampled "valid" (countLimit - 1)).stdout = plain ',' (header :: rows) := by
  intro column
  have mem : column ∈ series := List.mem_cons_self
  have fits : Uniform.Fits (.ofNat 25) (.ofNat 50) :=
    ⟨atMost_iff.2 (by decide +kernel), atMost_iff.2 (by decide +kernel)⟩
  have small : countLimit - 1 < countLimit := by decide
  obtain ⟨drawn, written⟩ := sampled_fields_are_in_band
  exact ⟨mem, fits, Uniform.isFraction_maxFraction,
    drawn column mem _ _ fits Uniform.isFraction_maxFraction, small, written _ small⟩

end Command

end ColumnStats
