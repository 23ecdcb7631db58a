import ColumnStats.Proofs.Literals
import ColumnStats.Proofs.Report

/-!
# Printed numbers

What the text of a number is, apart from how it is made, and what becomes of it when it is read
again.

* `IsWhole`, `IsNearestDecimal`, `Prints`: the form of a text, and how near it is to the number;
* `Decimal.exists_parts`: the digits on both sides of the point;
* `prints_fixed`: **numbers are printed as the nearest decimal**, in this form;
* `Numeral.denotes_pointed`, `Numeral.isNumeral_fixed`: what the text of a number stands for, and that
  every number is printed as a numeral;
* `fixed_eq_of_ofText?`: **a text that is read and printed again stays as it is**, although another
  number may have been read;
* `printed_numbers_are_rounded`, `printed_numbers_read_again`: the same for the numbers of a report.
-/

namespace ColumnStats

-- powers are those of the core library
attribute [local instance (2000)] instPowNat

open Numeral Text

/-! ## Texts with fixed places -/

/-- Digits, with no zero before other digits. -/
structure IsWhole (digits : List Char) : Prop where
  nonempty : digits ≠ []
  are : IsDigits digits
  bare : digits.head? = some '0' → digits = ['0']

/-- The value of the digits before and after a point. -/
def pointedValue (whole fraction : List Char) : ℚ :=
  digitsValue whole + digitsValue fraction / 10 ^ fraction.length

/-- The last digit is even. -/
def EndsEven (digits : List Char) : Prop :=
  ∃ front last, digits = front ++ [last] ∧ Even (digitsValue [last])

/-- The decimal is the multiple of its last place that is nearest to a magnitude, and even in a tie. -/
def IsNearestDecimal (magnitude : ℚ) (whole fraction : List Char) : Prop :=
  IsNearest (fun n : ℤ => (n / 10 ^ fraction.length : ℚ)) (fun _ => True) magnitude
    (pointedValue whole fraction) (EndsEven fraction)

/-- What the text of a number is. A minus stands before it exactly where the sign bit is set, also
before a zero. -/
inductive Prints (places : Nat) : Binary64 → List Char → Prop
  | nan : Prints places .nan "nan".toList
  | infinite (negative : Bool) :
    Prints places (.infinite negative) ((if negative then ['-'] else []) ++ "inf".toList)
  | finite {negative : Bool} {units : Nat} {representable : Representable units}
    {whole fraction : List Char} (isWhole : IsWhole whole) (isDigits : IsDigits fraction)
    (length_eq : fraction.length = places)
    (nearest : IsNearestDecimal |(Binary64.finite negative units representable).toRat|
      whole fraction) :
    Prints places (.finite negative units representable)
      ((if negative then ['-'] else []) ++ (whole ++ '.' :: fraction))

/-! ## Digits -/

namespace Decimal

theorem eq_zero_of_head?_toDigits {n : Nat} (h : (Nat.toDigits 10 n).head? = some '0') : n = 0 := by
  induction n using Nat.strongRecOn with
  | _ n ih =>
  rcases Nat.lt_or_ge n 10 with small | large
  · rw [Nat.toDigits_of_lt_base small, List.head?_cons, Option.some_inj] at h
    have value := Nat.ofDigitChars_ten_toDigits (n := n)
    rw [Nat.toDigits_of_lt_base small, h] at value
    exact value.symm
  · rw [Nat.toDigits_of_base_le (by decide) large,
      List.head?_append_of_ne_nil _ Nat.toDigits_ne_nil] at h
    have := ih (n / 10) (by omega) h
    omega

theorem isWhole_toDigits (n : Nat) : IsWhole (Nat.toDigits 10 n) where
  nonempty := Nat.toDigits_ne_nil
  are := fun _ hc => Nat.isDigit_of_mem_toDigits (by decide) (by decide) hc
  bare := by
    intro h
    rw [eq_zero_of_head?_toDigits h]
    rfl

theorem digitsValue_padded (width n : Nat) : digitsValue (padded width n) = n := by
  rw [digitsValue, padded, Nat.ofDigitChars_append, Nat.ofDigitChars_replicate_zero, Nat.mul_zero,
    Nat.ofDigitChars_ten_toDigits]

theorem endsEven_of_even {digits : List Char} (nonempty : digits ≠ [])
    (even : Even (digitsValue digits)) : EndsEven digits := by
  have split := List.dropLast_append_getLast nonempty
  refine ⟨digits.dropLast, digits.getLast nonempty, split.symm, ?_⟩
  rw [← split, digitsValue, ofDigitChars_append, Nat.even_add] at even
  exact even.1 (Even.mul_right (Nat.even_pow.2 ⟨by decide, Nat.one_ne_zero⟩) _)

/-- The digits on both sides of the point are those of a whole number of last places. -/
structure Parts (places scaled : Nat) (whole fraction : List Char) : Prop where
  isWhole : IsWhole whole
  isDigits : IsDigits fraction
  length_eq : fraction.length = places
  value_eq : pointedValue whole fraction = scaled / 10 ^ places
  endsEven : Even scaled → EndsEven fraction

theorem exists_parts {places : Nat} (positive : 0 < places) (scaled : Nat) : ∃ whole fraction,
    pointed places scaled = whole ++ '.' :: fraction ∧ Parts places scaled whole fraction := by
  have below : scaled % 10 ^ places < 10 ^ places := Nat.mod_lt _ (Nat.pow_pos (by decide))
  have length := length_padded positive below
  have fraction := digitsValue_padded places (scaled % 10 ^ places)
  refine ⟨_, _, rfl, isWhole_toDigits _, fun _ hc => isDigit_of_mem_padded hc, length, ?_, ?_⟩
  · have split : (scaled : ℚ) =
        10 ^ places * (scaled / 10 ^ places : Nat) + (scaled % 10 ^ places : Nat) := by
      exact_mod_cast (Nat.div_add_mod scaled (10 ^ places)).symm
    rw [pointedValue, fraction, length, digitsValue, Nat.ofDigitChars_ten_toDigits, split]
    field_simp
  · intro even
    refine endsEven_of_even (List.ne_nil_of_length_pos (by omega)) ?_
    rw [fraction, even_iff_two_dvd, Nat.dvd_mod_iff (Dvd.dvd.pow (by decide) positive.ne')]
    exact even.two_dvd

end Decimal

/-! ## Nearest decimals -/

theorem abs_div_sub_units (places units : Nat) (a : ℚ) :
    |a / 10 ^ places - units / unitsPerOne| =
      |a - (units * 10 ^ places : Nat) / unitsPerOne| / 10 ^ places := by
  have ten : (0 : ℚ) < 10 ^ places := by positivity
  rw [← abs_of_pos ten, ← abs_div, abs_of_pos ten, sub_div, Nat.cast_mul, Nat.cast_pow,
    Nat.cast_ofNat, mul_div_right_comm, mul_div_cancel_right₀ _ ten.ne']

theorem Decimal.Parts.isNearestDecimal {places units : Nat} {whole fraction : List Char}
    (h : Parts places (nearestEven (units * 10 ^ places) unitsPerOne) whole fraction) :
    IsNearestDecimal (units / unitsPerOne) whole fraction := by
  have one : 0 < unitsPerOne := Nat.cast_pos.1 unitsPerOne_pos
  have ten : (0 : ℚ) < 10 ^ places := by positivity
  have nearest := (isNearest_nearestEven one (units * 10 ^ places)).div ten
  have target : ((units * 10 ^ places : Nat) / unitsPerOne / 10 ^ places : ℚ) =
      units / unitsPerOne := by
    push_cast
    field_simp
  have nonneg : (0 : ℚ) ≤ units / unitsPerOne := div_nonneg units.cast_nonneg unitsPerOne_pos.le
  rw [target, ← h.value_eq] at nearest
  intro n _ other
  rw [h.length_eq] at other ⊢
  refine (nearest.imp h.endsEven).signed (i := 0) nonneg ?_ other ?_
  · exact ⟨trivial, by rw [Nat.cast_zero, zero_div]⟩
  · rcases lt_or_ge n 0 with negative | nonneg
    · exact Or.inl (div_neg_of_neg_of_pos (Int.cast_lt_zero.2 negative) ten)
    · obtain ⟨m, rfl⟩ := Int.eq_ofNat_of_zero_le nonneg
      exact Or.inr ⟨m, trivial, congrArg (· / 10 ^ places) (Int.cast_natCast m)⟩

/-- **Numbers are printed as the nearest decimal.** -/
theorem prints_fixed {places : Nat} (positive : 0 < places) (x : Binary64) :
    Prints places x (x.fixed places) := by
  cases x with
  | nan => exact .nan
  | infinite negative => exact .infinite negative
  | finite negative units representable =>
    obtain ⟨whole, fraction, e, parts⟩ := Decimal.exists_parts positive
      (nearestEven (units * 10 ^ places) unitsPerOne)
    rw [Binary64.fixed, e]
    refine .finite parts.isWhole parts.isDigits parts.length_eq ?_
    rw [abs_toRat_finite]
    exact parts.isNearestDecimal

/-- **Printed numbers are the correctly rounded decimals**, and the text of a summary is its label
and two of them. -/
theorem printed_numbers_are_rounded : (∀ x : Binary64, Prints 6 x (x.fixed Summary.places)) ∧
    ∀ summary : Summary, ∃ mean halfWidth, Prints 6 summary.mean mean ∧
      Prints 6 summary.halfWidth halfWidth ∧ summary.text =
        summary.label ++ " " ++ String.ofList mean ++ " " ++ String.ofList halfWidth := by
  have printed (x : Binary64) : Prints 6 x (x.fixed Summary.places) := prints_fixed (by decide) x
  exact ⟨printed, fun summary => ⟨_, _, printed summary.mean, printed summary.halfWidth, rfl⟩⟩

/-- Halfway between two decimals, the even one is taken; the sign of a zero is kept. -/
example : (Binary64.ofRatio 1 128).fixed 6 = "0.007812".toList ∧
    (Binary64.zero true).fixed 6 = "-0.000000".toList := by decide +kernel

/-! ## Reading a printed number -/

namespace Numeral

theorem isSign_signText (negative : Bool) : IsSign (Decimal.signText negative) := by
  cases negative with
  | false => exact Or.inl rfl
  | true => exact Or.inr (Or.inr rfl)

theorem decide_signText_eq (negative : Bool) :
    decide (Decimal.signText negative = ['-']) = negative := by
  cases negative <;> rfl

theorem denotes_pointed {places : Nat} (positive : 0 < places) (negative : Bool) (scaled : Nat) :
    Denotes (Decimal.signText negative ++ Decimal.pointed places scaled) negative
      (scaled / 10 ^ places) := by
  obtain ⟨whole, fraction, e, parts⟩ := Decimal.exists_parts positive scaled
  refine ⟨Decimal.signText negative, whole, ['.'], fraction, [], 0, ?_, isSign_signText negative,
    parts.isWhole.are, Or.inl rfl, parts.isDigits, fun h => parts.isWhole.nonempty h.1,
    Or.inl ⟨rfl, rfl⟩, (decide_signText_eq negative).symm, ?_⟩
  · rw [e, List.append_nil, List.append_assoc, List.singleton_append]
  · rw [← parts.value_eq, pointedValue, zpow_zero, mul_one]

theorem spellsInfinity_signText (negative : Bool) :
    SpellsInfinity (Decimal.signText negative ++ "inf".toList) negative :=
  ⟨_, _, rfl, isSign_signText negative, Or.inl rfl, (decide_signText_eq negative).symm⟩

theorem spellsNan_nan : SpellsNan "nan".toList := ⟨[], _, rfl, Or.inl rfl, rfl⟩

theorem isDecimal_pointed (places scaled : Nat) : IsDecimal (Decimal.pointed places scaled) := by
  have whole : IsDigits (Nat.toDigits 10 (scaled / 10 ^ places)) :=
    fun c hc => Nat.isDigit_of_mem_toDigits (by omega) (by omega) hc
  have fraction : IsDigits (Decimal.padded places (scaled % 10 ^ places)) :=
    fun c hc => Decimal.isDigit_of_mem_padded hc
  refine ⟨_, ['.'], _, [], ?_, whole, Or.inl rfl, fraction, fun h => Nat.toDigits_ne_nil h.1,
    Or.inl rfl⟩
  rw [Decimal.pointed, List.append_nil, List.append_assoc, List.singleton_append]

/-- **Every number is printed as a numeral.** -/
theorem isNumeral_fixed (places : Nat) (x : Binary64) : IsNumeral (x.fixed places) := by
  cases x with
  | nan =>
    have word : IsWord "nan".toList := by
      rw [IsWord]
      decide
    exact ⟨[], _, rfl, Or.inl rfl, Or.inl word⟩
  | infinite negative =>
    have word : IsWord "inf".toList := by
      rw [IsWord]
      decide
    exact ⟨_, _, rfl, isSign_signText negative, Or.inl word⟩
  | finite negative units =>
    exact ⟨_, _, rfl, isSign_signText negative, Or.inr (isDecimal_pointed places _)⟩

end Numeral

theorem printed_lt_overflow {units : Nat} (representable : Representable units) (places : Nat) :
    (nearestEven (units * 10 ^ places) unitsPerOne / 10 ^ places : ℚ) < 2 ^ 1024 - 2 ^ 970 := by
  have one : 0 < unitsPerOne := Nat.cast_pos.1 unitsPerOne_pos
  have ten : (1 : ℚ) ≤ 10 ^ places := one_le_pow₀ (by norm_num)
  have half := abs_nearestEven_sub_le_half one (units * 10 ^ places)
  have near : |(nearestEven (units * 10 ^ places) unitsPerOne / 10 ^ places : ℚ) -
      units / unitsPerOne| ≤ 1 / 2 := by
    rw [abs_div_sub_units]
    exact (div_le_self (abs_nonneg _) ten).trans half
  have last := representable.div_unitsPerOne_le
  have step : (2 : ℚ) ^ 971 = 2 * 2 ^ 970 := pow_succ' 2 970
  have enough : (1 : ℚ) ≤ 2 ^ 970 := one_le_pow₀ (by norm_num)
  have upper := (abs_le.1 near).2
  generalize (2 : ℚ) ^ 971 = next at *
  generalize (2 : ℚ) ^ 970 = spacing at *
  generalize (2 : ℚ) ^ 1024 = top at *
  linarith

/-- **A text that is read and printed again stays as it is.** -/
theorem fixed_eq_of_ofText? {places : Nat} (positive : 0 < places) {x y : Binary64}
    (read : Binary64.ofText? (x.fixed places) = some y) : y.fixed places = x.fixed places := by
  have value := hasValue_of_ofText? read
  cases x with
  | nan => rw [value.nan spellsNan_nan]
  | infinite negative => rw [value.infinite negative (spellsInfinity_signText negative)]
  | finite negative units representable =>
    have rounded := value.decimal _ _ (denotes_pointed positive negative
      (nearestEven (units * 10 ^ places) unitsPerOne))
    have small := printed_lt_overflow representable places
    have near := rounded.abs_toRat_sub_le small (y := .finite negative units representable) rfl
    obtain ⟨units', representable', rfl, -⟩ := rounded.nearest small
    have one : 0 < unitsPerOne := Nat.cast_pos.1 unitsPerOne_pos
    have ten : (0 : ℚ) < 10 ^ places := by positivity
    rw [Binary64.toRat, Binary64.toRat, abs_withSign_sub, abs_withSign_sub, abs_sub_comm,
      abs_div_sub_units, abs_sub_comm (units / unitsPerOne : ℚ), abs_div_sub_units,
      div_le_div_iff_of_pos_right ten] at near
    rw [Binary64.fixed, Binary64.fixed, nearestEven_eq_of_abs_le one one near]

/-! ## Printed fields -/

theorem isBlank_of_isDigit {c : Char} (h : c.isDigit) : isBlank c = false := by
  have zero : '0'.toNat = 0x30 := rfl
  have nine : '9'.toNat = 0x39 := rfl
  rw [Char.isDigit_iff_toNat, zero, nine] at h
  simp [isBlank, inRanges, blankRanges]
  omega

theorem isBlank_of_mem_fixed {places : Nat} {x : Binary64} {c : Char} (h : c ∈ x.fixed places) :
    isBlank c = false := by
  have other : "-.nafi".toList.all fun c => !isBlank c := by decide
  rcases Binary64.mem_fixed h with digit | mem
  · exact isBlank_of_isDigit digit
  · simpa using List.all_eq_true.1 other c mem

theorem trim_fixed (places : Nat) (x : Binary64) : trim (x.fixed places) = x.fixed places :=
  trim_eq_self (fun _ hc => isBlank_of_mem_fixed (List.mem_of_mem_head? hc))
    (fun _ hc => isBlank_of_mem_fixed (List.mem_of_mem_getLast? hc))

theorem Collector.exists_offer_eq {collector : Collector} {pieces : List (List Char)}
    (nonempty : pieces ≠ [])
    (numerals : ∀ piece ∈ pieces, collector.delimiter ∉ piece ∧ IsNumeral (trim piece))
    (width : pieces.length = collector.table.width) :
    ∃ row, ReadsAs (pieces.map trim) row ∧ row.length = collector.table.width ∧
      collector.offer (String.ofList ([collector.delimiter].intercalate pieces)) =
        (collector.addRow row, none) := by
  have verdict := collector.verdict_readRow (String.ofList ([collector.delimiter].intercalate pieces))
  rw [fields_intercalate nonempty fun piece hp => (numerals piece hp).1] at verdict
  have labels : (pieces.map trim).length = collector.table.labels.length := by
    rw [List.length_map, width, Table.length_labels]
  have are : ∀ field ∈ pieces.map trim, IsNumeral field :=
    List.forall_mem_map.2 fun piece hp => (numerals piece hp).2
  obtain ⟨row, e⟩ := verdict.exists_row_iff.2 ⟨are, labels⟩
  rw [e] at verdict
  cases verdict with
  | row reads _ =>
    refine ⟨row, reads, reads.length_eq.symm.trans (labels.trans (Table.length_labels _)), ?_⟩
    rw [offer, addLine, e]
    rfl

/-- **Printing is stable under re-reading**: a printed number is taken as a field among others, and
the value that is stored for it has the same text. -/
theorem printed_numbers_read_again (x : Binary64) : ∃ y : Binary64,
    y.fixed Summary.places = x.fixed Summary.places ∧
    ∀ (collector : Collector) (before after : List (List Char)),
      collector.delimiter ∉ x.fixed Summary.places →
      (∀ field ∈ before ++ after, collector.delimiter ∉ field ∧ IsNumeral (trim field)) →
      before.length + 1 + after.length = collector.table.width →
      ∃ next, collector.offer (String.ofList ([collector.delimiter].intercalate
          (before ++ x.fixed Summary.places :: after))) = (next, none) ∧
        ∀ column, collector.table.columns[before.length]? = some column →
          next.table.columns[before.length]? =
            some { column with values := column.values.push y } := by
  obtain ⟨y, read⟩ := Option.isSome_iff_exists.1
    (ofText?_isSome_iff.2 (isNumeral_fixed Summary.places x))
  refine ⟨y, fixed_eq_of_ofText? (by decide) read, ?_⟩
  intro collector before after free others width
  have numerals : ∀ field ∈ before ++ x.fixed Summary.places :: after,
      collector.delimiter ∉ field ∧ IsNumeral (trim field) := by
    obtain ⟨left, right⟩ := List.forall_mem_append.1 others
    have numeral : IsNumeral (trim (x.fixed Summary.places)) := by
      rw [trim_fixed]
      exact isNumeral_fixed _ x
    exact List.forall_mem_append.2 ⟨left, List.forall_mem_cons.2 ⟨⟨free, numeral⟩, right⟩⟩
  have wide : (before ++ x.fixed Summary.places :: after).length = collector.table.width := by
    rw [List.length_append, List.length_cons]
    omega
  obtain ⟨row, reads, length, e⟩ := Collector.exists_offer_eq (by simp) numerals wide
  refine ⟨_, e, fun column hc => ?_⟩
  obtain ⟨value, hv, stored⟩ := (Collector.appended_addRow length).columns_eq _ column hc
  have field : ((before ++ x.fixed Summary.places :: after).map trim)[before.length]? =
      some (x.fixed Summary.places) := by
    rw [List.getElem?_map, List.getElem?_append_right le_rfl, Nat.sub_self, List.getElem?_cons_zero,
      Option.map_some, trim_fixed]
  obtain ⟨value', hv', read'⟩ := exists_getElem?_of_forall₂ reads field
  obtain rfl : value = value' := Option.some.inj (hv.symm.trans hv')
  obtain rfl : value = y := Option.some.inj (read'.symm.trans read)
  exact stored

/-- A third is printed between two other fields, and read as another number with the same text. -/
theorem printed_third_reads_again :
    let third := Binary64.ofRatio 1 3
    let start := Collector.ofHeader 59 "a;b;c"
    third.fixed Summary.places = "0.333333".toList ∧
    ∃ y next, y ≠ third ∧ y.fixed Summary.places = "0.333333".toList ∧
      start.offer " 1;0.333333;nan" = (next, none) ∧
      next.table.columns[1]? = some ⟨"b", #[y]⟩ := by
  intro third start
  have text : third.fixed Summary.places = "0.333333".toList := by decide +kernel
  obtain ⟨y, same, taken⟩ := printed_numbers_read_again third
  obtain ⟨next, e, stored⟩ := taken start [" 1".toList] ["nan".toList] (by rw [text]; decide)
    (by decide) (by decide)
  rw [text] at e same
  have another : (start.offer " 1;0.333333;nan").1.table.columns[1]? ≠ some ⟨"b", #[third]⟩ := by
    decide +kernel
  have offered : start.offer " 1;0.333333;nan" = (next, none) := e
  have stored := stored ⟨"b", #[]⟩ rfl
  refine ⟨text, y, next, fun unchanged => another ?_, same, offered, stored⟩
  rw [offered, ← unchanged]
  exact stored

end ColumnStats
