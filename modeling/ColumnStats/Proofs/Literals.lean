import ColumnStats.Proofs.Grammar
import ColumnStats.Proofs.Histories
import ColumnStats.Proofs.Nearest

/-!
# Values of numerals

What a numeral stands for, and that it is stored as the number nearest to that.

* `Numeral.Denotes`, `Numeral.SpellsInfinity`, `Numeral.SpellsNan`: the exact rational of a decimal,
  and the words; every numeral is one of them (`Numeral.denotes_of_isNumeral`);
* `Numeral.parse?_eq_of_denotes`: a decimal is read as a whole number times a power of ten;
* `Numeral.nearest_eq_ofFraction`: **the shortcuts change nothing**: neither very large nor very
  small decimals need their powers of ten;
* `Numeral.hasValue_of_ofText?`: **every numeral is read as the number that it stands for**;
* `stored_values_are_rounded`: the values of a line that a collector takes are correctly rounded.
-/

namespace ColumnStats

-- powers are those of the core library
attribute [local instance (2000)] instPowNat

/-! ## What numerals stand for -/

namespace Numeral

/-- The number of digits in base ten. -/
def digitsValue (digits : List Char) : Nat := Nat.ofDigitChars 10 digits 0

/-- The exponent stands for a power of ten; without an exponent it is zero. -/
def IsPower (exponent : List Char) (power : Int) : Prop :=
  exponent = [] ∧ power = 0 ∨ ∃ mark sign digits, exponent = mark :: sign ++ digits ∧
    (mark = 'e' ∨ mark = 'E') ∧ IsSign sign ∧ digits ≠ [] ∧ IsDigits digits ∧
    power = if sign = ['-'] then -(digitsValue digits : Int) else digitsValue digits

/-- The text is a decimal that stands for the rational number with this sign and magnitude. -/
def Denotes (text : List Char) (negative : Bool) (magnitude : ℚ) : Prop :=
  ∃ sign whole point fraction exponent power,
    text = sign ++ (whole ++ point ++ fraction ++ exponent) ∧ IsSign sign ∧ IsDigits whole ∧
    IsPoint point fraction ∧ IsDigits fraction ∧ ¬ (whole = [] ∧ fraction = []) ∧
    IsPower exponent power ∧ negative = decide (sign = ['-']) ∧
    magnitude = (digitsValue whole + digitsValue fraction / 10 ^ fraction.length) * 10 ^ power

/-- The text is a word for the infinity with this sign. -/
def SpellsInfinity (text : List Char) (negative : Bool) : Prop :=
  ∃ sign word, text = sign ++ word ∧ IsSign sign ∧
    (word.map Char.toLower = "inf".toList ∨ word.map Char.toLower = "infinity".toList) ∧
    negative = decide (sign = ['-'])

/-- The text is the word for no number. -/
def SpellsNan (text : List Char) : Prop :=
  ∃ sign word, text = sign ++ word ∧ IsSign sign ∧ word.map Char.toLower = "nan".toList

/-! ## Reading -/

theorem exponent?_eq {exponent : List Char} {power : Int} (h : IsPower exponent power) :
    exponent? exponent = some power := by
  rcases h with ⟨rfl, rfl⟩ | ⟨mark, sign, digits, rfl, hm, hs, hd⟩
  · rfl
  · obtain ⟨nonempty, are, rfl⟩ := hd
    have read : digits? digits = some (digitsValue digits) :=
      if_pos ⟨nonempty, List.all_eq_true.2 are⟩
    rw [List.cons_append, exponent?, if_pos hm, takeSign_append hs (not_signFirst_of_isDigits are)]
    simp only [read, Option.map_some, decide_eq_true_eq]

theorem isExponent_of_isPower {exponent : List Char} {power : Int} (h : IsPower exponent power) :
    IsExponent exponent := by
  rw [← exponent?_isSome_iff, exponent?_eq h]
  rfl

theorem toLower_of_isDigit {c : Char} (h : c.isDigit) : c.toLower = c := by
  have nine : '9'.toNat = 0x39 := rfl
  have letter : 'A'.toNat = 0x41 := rfl
  have bounds := Char.isDigit_iff_toNat.1 h
  refine dif_neg ?_
  rintro ⟨lower, -⟩
  have lower : 'A'.toNat ≤ c.toNat := lower
  omega

theorem not_isWord_of_isDecimal {text : List Char} (h : IsDecimal text) : ¬ IsWord text := by
  obtain ⟨c, rest, rfl, first⟩ := exists_head_of_isDecimal h
  have kept : c.toLower = c := by
    rcases first with digit | rfl
    · exact toLower_of_isDigit digit
    · rfl
  intro word
  rw [IsWord, List.map_cons, kept] at word
  have letter : c = 'i' ∨ c = 'n' := by
    simp only [List.mem_cons, List.not_mem_nil, or_false] at word
    rcases word with word | word | word
    · exact Or.inl (List.cons.inj word).1
    · exact Or.inl (List.cons.inj word).1
    · exact Or.inr (List.cons.inj word).1
  rcases letter with rfl | rfl <;> exact absurd first (by decide)

theorem parse?_append {sign body : List Char} (hs : IsSign sign) (first : ¬ SignFirst body) :
    parse? (sign ++ body) =
      if body.map Char.toLower = "inf".toList ∨ body.map Char.toLower = "infinity".toList then
        some (infinite (decide (sign = ['-'])))
      else if body.map Char.toLower = "nan".toList then some nan
      else decimal? (decide (sign = ['-'])) body := by
  unfold parse?
  rw [takeSign_append hs first]

theorem ofDigitChars_append (whole fraction : List Char) :
    Nat.ofDigitChars 10 (whole ++ fraction) 0 =
      10 ^ fraction.length * digitsValue whole + digitsValue fraction := by
  rw [Nat.ofDigitChars_append, Nat.ofDigitChars_eq_ofDigitChars_zero]
  rfl

theorem parse?_eq_of_denotes {text : List Char} {negative : Bool} {magnitude : ℚ}
    (h : Denotes text negative magnitude) : ∃ (coefficient : Nat) (exponent : Int),
      parse? text = some (decimal negative coefficient exponent) ∧
      magnitude = coefficient * 10 ^ exponent := by
  obtain ⟨sign, whole, point, fraction, exponent, power, rfl, hs, hw, hp, hf, hn, he, rfl, rfl⟩ := h
  have isDecimal : IsDecimal (whole ++ point ++ fraction ++ exponent) :=
    ⟨_, _, _, _, rfl, hw, hp, hf, hn, isExponent_of_isPower he⟩
  have notWord := not_isWord_of_isDecimal isDecimal
  simp only [IsWord, List.mem_cons, List.not_mem_nil, or_false, not_or] at notWord
  rw [parse?_append hs (not_signFirst_of_isDecimal isDecimal),
    if_neg (not_or.2 ⟨notWord.1, notWord.2.1⟩), if_neg notWord.2.2,
    decimal?_append hw hp hf hn (isExponent_of_isPower he), exponent?_eq he]
  refine ⟨_, _, rfl, ?_⟩
  have ten : (10 : ℚ) ≠ 0 := by norm_num
  rw [ofDigitChars_append, zpow_sub₀ ten, zpow_natCast, Nat.cast_add, Nat.cast_mul, Nat.cast_pow,
    Nat.cast_ofNat]
  field_simp

theorem parse?_eq_of_spellsInfinity {text : List Char} {negative : Bool}
    (h : SpellsInfinity text negative) : parse? text = some (infinite negative) := by
  obtain ⟨sign, word, rfl, hs, hw, rfl⟩ := h
  have isWord : IsWord word := by
    rw [IsWord]
    rcases hw with e | e <;> simp [e]
  rw [parse?_append hs (not_signFirst_of_isWord isWord), if_pos hw]

theorem parse?_eq_of_spellsNan {text : List Char} (h : SpellsNan text) :
    parse? text = some nan := by
  obtain ⟨sign, word, rfl, hs, hw⟩ := h
  have isWord : IsWord word := by
    rw [IsWord]
    simp [hw]
  rw [parse?_append hs (not_signFirst_of_isWord isWord), hw, if_neg (by decide), if_pos rfl]

theorem exists_isPower {exponent : List Char} (h : IsExponent exponent) :
    ∃ power, IsPower exponent power := by
  rcases h with rfl | ⟨mark, sign, digits, rfl, hm, hs, nonempty, are⟩
  · exact ⟨0, Or.inl ⟨rfl, rfl⟩⟩
  · exact ⟨_, Or.inr ⟨mark, sign, digits, rfl, hm, hs, nonempty, are, rfl⟩⟩

theorem denotes_of_isNumeral {text : List Char} (h : IsNumeral text) :
    (∃ negative magnitude, Denotes text negative magnitude) ∨
      (∃ negative, SpellsInfinity text negative) ∨ SpellsNan text := by
  obtain ⟨sign, body, rfl, hs, word | decimal⟩ := h
  · rw [IsWord, List.mem_cons, List.mem_cons, List.mem_singleton] at word
    rcases word with e | e | e
    · exact Or.inr (Or.inl ⟨_, sign, body, rfl, hs, Or.inl e, rfl⟩)
    · exact Or.inr (Or.inl ⟨_, sign, body, rfl, hs, Or.inr e, rfl⟩)
    · exact Or.inr (Or.inr ⟨sign, body, rfl, hs, e⟩)
  · obtain ⟨whole, point, fraction, exponent, rfl, hw, hp, hf, hn, he⟩ := decimal
    obtain ⟨power, he⟩ := exists_isPower he
    exact Or.inl ⟨_, _, sign, whole, point, fraction, exponent, power, rfl, hs, hw, hp, hf, hn, he,
      rfl, rfl⟩

/-! ## Values -/

theorem fraction_eq (coefficient : Nat) (exponent : Int) :
    (((coefficient * 10 ^ exponent.toNat * unitsPerOne : Nat) : ℚ) /
      (10 ^ (-exponent).toNat : Nat) / unitsPerOne) = coefficient * 10 ^ exponent := by
  have unit := unitsPerOne_pos.ne'
  rw [Nat.cast_mul, Nat.cast_mul, Nat.cast_pow, Nat.cast_pow, Nat.cast_ofNat]
  obtain ⟨n, rfl | rfl⟩ := exponent.eq_nat_or_neg
  · rw [Int.toNat_natCast, Int.toNat_neg_natCast, zpow_natCast, pow_zero, div_one,
      mul_div_cancel_right₀ _ unit]
  · rw [Int.neg_neg, Int.toNat_natCast, Int.toNat_neg_natCast, zpow_neg, zpow_natCast, pow_zero,
      mul_one, div_right_comm, mul_div_cancel_right₀ _ unit, div_eq_mul_inv]

/-- A decimal of this size overflows, whatever its digits. -/
theorem overflow_of_le {coefficient : Nat} (positive : 0 < coefficient) {exponent : Int}
    (large : 310 ≤ exponent) : (2 : ℚ) ^ 1024 - 2 ^ 970 ≤ coefficient * 10 ^ exponent := by
  have one : (1 : ℚ) ≤ coefficient := by exact_mod_cast positive
  have power : (2 : ℚ) ^ 1024 ≤ 10 ^ exponent :=
    calc (2 : ℚ) ^ 1024 ≤ 2 ^ (205 * 5) := pow_le_pow_right₀ (by norm_num) (by norm_num)
      _ = (2 ^ 205) ^ 5 := pow_mul _ _ _
      _ ≤ (10 ^ 62) ^ 5 := pow_le_pow_left₀ (by positivity) (by norm_num) 5
      _ = 10 ^ ((62 * 5 : Nat) : Int) := by rw [zpow_natCast, pow_mul]
      _ ≤ 10 ^ exponent := zpow_le_zpow_right₀ (by norm_num) (by omega)
  have lower : (0 : ℚ) < 2 ^ 970 := pow_pos (by norm_num) _
  have upper : (0 : ℚ) < 10 ^ exponent := zpow_pos (by norm_num) _
  calc (2 : ℚ) ^ 1024 - 2 ^ 970 ≤ 2 ^ 1024 := sub_le_self _ lower.le
    _ ≤ 1 * 10 ^ exponent := power.trans (one_mul _).ge
    _ ≤ coefficient * 10 ^ exponent := mul_le_mul_of_nonneg_right one upper.le

/-- Of a decimal of this size nothing is left, whatever its digits. -/
theorem underflow_of_le {coefficient : Nat} {exponent : Int}
    (small : exponent + (coefficient.log2 + 400) ≤ 0) :
    (coefficient : ℚ) * 10 ^ exponent ≤ 1 / 2 ^ 1075 := by
  have digits : (coefficient : ℚ) ≤ 2 ^ (coefficient.log2 + 1) := by
    exact_mod_cast (Nat.lt_log2_self (n := coefficient)).le
  generalize coefficient.log2 = bits at small digits
  have power : (10 : ℚ) ^ exponent ≤ (10 ^ (bits + 400))⁻¹ := by
    rw [← zpow_natCast, ← zpow_neg]
    exact zpow_le_zpow_right₀ (by norm_num) (by push_cast; omega)
  have enough : (2 : ℚ) ^ (bits + 1) * 2 ^ 1075 ≤ 10 ^ (bits + 400) :=
    calc (2 : ℚ) ^ (bits + 1) * 2 ^ 1075 = 2 ^ (bits + 1 + 1075) := (pow_add _ _ _).symm
      _ ≤ 2 ^ (3 * (bits + 400)) := pow_le_pow_right₀ (by norm_num) (by omega)
      _ = (2 ^ 3) ^ (bits + 400) := pow_mul _ _ _
      _ ≤ 10 ^ (bits + 400) := pow_le_pow_left₀ (by norm_num) (by norm_num) _
  have lower : (0 : ℚ) < 2 ^ 1075 := pow_pos (by norm_num) _
  have upper : (0 : ℚ) < 10 ^ (bits + 400) := pow_pos (by norm_num) _
  calc (coefficient : ℚ) * 10 ^ exponent
      ≤ 2 ^ (bits + 1) * (10 ^ (bits + 400))⁻¹ :=
        mul_le_mul digits power (zpow_pos (by norm_num) _).le (pow_pos (by norm_num) _).le
    _ ≤ 1 / 2 ^ 1075 := by
      rw [← div_eq_mul_inv, div_le_div_iff₀ upper lower, one_mul]
      exact enough

/-- **The shortcuts change nothing**: a decimal has the value of its fraction of units. -/
theorem nearest_eq_ofFraction (negative : Bool) (coefficient : Nat) (exponent : Int) :
    nearest negative coefficient exponent = .ofFraction negative
      (coefficient * 10 ^ exponent.toNat * unitsPerOne) (10 ^ (-exponent).toNat) := by
  have rounded := isRounded_ofFraction negative (coefficient * 10 ^ exponent.toNat * unitsPerOne)
    (Nat.pow_pos (n := (-exponent).toNat) (by decide : 0 < 10))
  rw [fraction_eq] at rounded
  rw [nearest]
  split
  next none =>
    refine (rounded.underflow.2 ?_).symm
    rw [none, Nat.cast_zero, zero_mul]
    positivity
  next some =>
    split
    next large => exact (rounded.overflow.2 (overflow_of_le (Nat.pos_of_ne_zero some) large)).symm
    next =>
      split
      next small => exact (rounded.underflow.2 (underflow_of_le small)).symm
      next => rfl

theorem isRounded_of_denotes {text : List Char} {negative : Bool} {magnitude : ℚ}
    (h : Denotes text negative magnitude) {value : Binary64}
    (read : Binary64.ofText? text = some value) : IsRounded negative magnitude value := by
  obtain ⟨coefficient, exponent, parsed, rfl⟩ := parse?_eq_of_denotes h
  rw [Binary64.ofText?, parsed] at read
  obtain rfl : nearest negative coefficient exponent = value := Option.some.inj read
  rw [nearest_eq_ofFraction, ← fraction_eq]
  exact isRounded_ofFraction negative _ (Nat.pow_pos (by decide))

/-- The value is the one that the numeral stands for: a decimal is rounded, a word has its own. -/
structure HasValue (text : List Char) (value : Binary64) : Prop where
  kinds : (∃ negative magnitude, Denotes text negative magnitude) ∨
    (∃ negative, SpellsInfinity text negative) ∨ SpellsNan text
  decimal : ∀ negative magnitude, Denotes text negative magnitude →
    IsRounded negative magnitude value
  infinite : ∀ negative, SpellsInfinity text negative → value = .infinite negative
  nan : SpellsNan text → value = .nan

/-- **Every numeral is read as the number that it stands for.** -/
theorem hasValue_of_ofText? {text : List Char} {value : Binary64}
    (read : Binary64.ofText? text = some value) : HasValue text value where
  kinds := denotes_of_isNumeral (ofText?_isSome_iff.1 (by rw [read]; rfl))
  decimal := fun _ _ denotes => isRounded_of_denotes denotes read
  infinite := by
    intro negative spells
    rw [Binary64.ofText?, parse?_eq_of_spellsInfinity spells] at read
    exact (Option.some.inj read).symm
  nan := by
    intro spells
    rw [Binary64.ofText?, parse?_eq_of_spellsNan spells] at read
    exact (Option.some.inj read).symm

end Numeral

/-! ## Stored values -/

theorem Collector.exists_row_of_offer {collector next : Collector} {line : String}
    (taken : collector.offer line = (next, none)) : ∃ row,
      ReadsAs (fields collector.delimiter line) row ∧ row.length = collector.table.width ∧
      next = collector.addRow row := by
  have verdict := collector.verdict_readRow line
  rw [offer, addLine] at taken
  cases hr : collector.readRow line with
  | error fault =>
    rw [hr] at taken
    cases taken
  | ok row =>
    rw [hr] at taken verdict
    cases verdict with
    | row reads width =>
      rw [Table.length_labels] at width
      exact ⟨row, reads, reads.length_eq.symm.trans width, (Prod.mk.inj taken).1.symm⟩

/-- **Stored values are correctly rounded.** Whatever a collector holds, a line that it takes has
one field for every column, and the column gets the value that the field stands for. -/
theorem stored_values_are_rounded {collector next : Collector} {line : String}
    {record : List (List Char)} (fields : IsRecord collector.delimiter line record)
    (taken : collector.offer line = (next, none)) :
    record.length = collector.table.width ∧ next.table.width = collector.table.width ∧
    ∀ (j : Nat) (field : List Char) (column : Column), record[j]? = some field →
      collector.table.columns[j]? = some column → ∃ value,
        next.table.columns[j]? = some { column with values := column.values.push value } ∧
        Numeral.HasValue field value := by
  obtain rfl := isRecord_iff.1 fields
  obtain ⟨row, reads, width, rfl⟩ := Collector.exists_row_of_offer taken
  have appended := Collector.appended_addRow width
  refine ⟨reads.length_eq.trans width, appended.width_eq, ?_⟩
  intro j field column hf hc
  obtain ⟨value, hv, stored⟩ := appended.columns_eq j column hc
  obtain ⟨value', hv', read⟩ := exists_getElem?_of_forall₂ reads hf
  obtain rfl : value = value' := Option.some.inj (hv.symm.trans hv')
  exact ⟨value, stored, Numeral.hasValue_of_ofText? read⟩

/-- A decimal halfway between two numbers, one that overflows, and the word for no number. -/
theorem halfway_and_overflowing_fields_are_stored :
    let start := Collector.ofHeader 44 "a,b,c"
    let next := (start.offer " 9007199254740993,-1e400,NaN").1
    IsRecord ',' " 9007199254740993,-1e400,NaN"
      ["9007199254740993".toList, "-1e400".toList, "NaN".toList] ∧
    start.offer " 9007199254740993,-1e400,NaN" = (next, none) ∧
    (∃ value, next.table.columns[0]? = some ⟨"a", #[value]⟩ ∧
      IsRounded false 9007199254740993 value) ∧
    next.table.columns[1]? = some ⟨"b", #[.infinite true]⟩ ∧
    next.table.columns[2]? = some ⟨"c", #[.nan]⟩ := by
  intro start next
  have fields : IsRecord ',' " 9007199254740993,-1e400,NaN"
      ["9007199254740993".toList, "-1e400".toList, "NaN".toList] := isRecord_iff.2 (by decide)
  have taken : start.offer " 9007199254740993,-1e400,NaN" = (next, none) :=
    Prod.ext rfl (by decide +kernel)
  obtain ⟨-, -, stored⟩ := stored_values_are_rounded fields taken
  refine ⟨fields, taken, ?_, ?_, ?_⟩
  · obtain ⟨value, column, hasValue⟩ := stored 0 _ ⟨"a", #[]⟩ rfl rfl
    have denotes : Numeral.Denotes "9007199254740993".toList false 9007199254740993 := by
      refine ⟨[], "9007199254740993".toList, [], [], [], 0, rfl, Or.inl rfl, by decide,
        Or.inr ⟨rfl, rfl⟩, by decide, by decide, Or.inl ⟨rfl, rfl⟩, rfl, ?_⟩
      have whole : Numeral.digitsValue "9007199254740993".toList = 9007199254740993 := by decide
      have fraction : Numeral.digitsValue [] = 0 := by decide
      rw [whole, fraction]
      norm_num
    exact ⟨value, column, hasValue.decimal _ _ denotes⟩
  · obtain ⟨value, column, hasValue⟩ := stored 1 _ ⟨"b", #[]⟩ rfl rfl
    have denotes : Numeral.Denotes "-1e400".toList true ((1 : Nat) * 10 ^ (400 : Int)) := by
      refine ⟨['-'], ['1'], [], [], "e400".toList, 400, rfl, Or.inr (Or.inr rfl), by decide,
        Or.inr ⟨rfl, rfl⟩, by decide, by decide, ?_, rfl, ?_⟩
      · exact Or.inr ⟨'e', [], "400".toList, rfl, Or.inl rfl, Or.inl rfl, by decide, by decide,
          by decide⟩
      · have whole : Numeral.digitsValue ['1'] = 1 := by decide
        have fraction : Numeral.digitsValue [] = 0 := by decide
        rw [whole, fraction, Nat.cast_zero, zero_div, add_zero]
    obtain rfl := (hasValue.decimal _ _ denotes).overflow.2
      (Numeral.overflow_of_le Nat.one_pos (by decide))
    exact column
  · obtain ⟨value, column, hasValue⟩ := stored 2 _ ⟨"c", #[]⟩ rfl rfl
    obtain rfl := hasValue.nan ⟨[], _, rfl, Or.inl rfl, rfl⟩
    exact column

end ColumnStats
