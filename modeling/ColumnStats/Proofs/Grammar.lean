import ColumnStats.Decimal.Numeral
import Mathlib.Data.List.TakeWhile

/-!
# The grammar of numerals

What a numeral is, apart from the function that reads it.

* `IsNumeral`: an optional sign before a word or a decimal;
* `decimal?_append`: the numeral that a decimal is read as;
* `parse?_isSome_iff`: **a text is read exactly when it is a numeral**.
-/

namespace ColumnStats.Numeral

/-- An optional sign. -/
def IsSign (text : List Char) : Prop := text = [] ∨ text = ['+'] ∨ text = ['-']

/-- ASCII digits, or nothing. -/
def IsDigits (text : List Char) : Prop := ∀ c ∈ text, c.isDigit

instance : DecidablePred IsDigits :=
  List.decidableBAll (fun c : Char => c.isDigit = true)

/-- One of the words, in any case. -/
def IsWord (text : List Char) : Prop :=
  text.map Char.toLower ∈ ["inf".toList, "infinity".toList, "nan".toList]

/-- An optional exponent: its mark, an optional sign and at least one digit. -/
def IsExponent (text : List Char) : Prop :=
  text = [] ∨ ∃ mark sign digits, text = mark :: sign ++ digits ∧ (mark = 'e' ∨ mark = 'E') ∧
    IsSign sign ∧ digits ≠ [] ∧ IsDigits digits

/-- A point before a fraction; without the point there is no fraction. -/
def IsPoint (point fraction : List Char) : Prop := point = ['.'] ∨ point = [] ∧ fraction = []

/-- Digits with an optional point and at least one digit, and an optional exponent. -/
def IsDecimal (text : List Char) : Prop :=
  ∃ whole point fraction exponent, text = whole ++ point ++ fraction ++ exponent ∧
    IsDigits whole ∧ IsPoint point fraction ∧ IsDigits fraction ∧ ¬ (whole = [] ∧ fraction = []) ∧
    IsExponent exponent

/-- A text that stands for a number. -/
def IsNumeral (text : List Char) : Prop :=
  ∃ sign body, text = sign ++ body ∧ IsSign sign ∧ (IsWord body ∨ IsDecimal body)

/-! ## Signs -/

/-- The text begins with a sign. -/
def SignFirst (text : List Char) : Prop := ∃ c ∈ text.head?, c = '+' ∨ c = '-'

theorem takeSign_append {sign body : List Char} (h : IsSign sign) (hb : ¬ SignFirst body) :
    takeSign (sign ++ body) = (decide (sign = ['-']), body) := by
  rcases h with rfl | rfl | rfl
  · rw [List.nil_append]
    unfold takeSign
    split
    · exact absurd ⟨'+', rfl, Or.inl rfl⟩ hb
    · exact absurd ⟨'-', rfl, Or.inr rfl⟩ hb
    · rfl
  · rfl
  · rfl

theorem exists_sign (text : List Char) : ∃ sign, IsSign sign ∧ text = sign ++ (takeSign text).2 := by
  unfold takeSign
  split
  · exact ⟨['+'], Or.inr (Or.inl rfl), rfl⟩
  · exact ⟨['-'], Or.inr (Or.inr rfl), rfl⟩
  · exact ⟨[], Or.inl rfl, rfl⟩

/-! ## Digits and exponents -/

theorem not_signFirst_of_isDigits {text : List Char} (h : IsDigits text) : ¬ SignFirst text := by
  rintro ⟨c, hc, rfl | rfl⟩
  · exact absurd (h '+' (List.mem_of_mem_head? hc)) (by decide)
  · exact absurd (h '-' (List.mem_of_mem_head? hc)) (by decide)

theorem digits?_isSome_iff {text : List Char} : (digits? text).isSome ↔ text ≠ [] ∧ IsDigits text := by
  rw [digits?, Option.isSome_ite, List.all_eq_true, IsDigits]

theorem exponent?_isSome_iff {text : List Char} : (exponent? text).isSome ↔ IsExponent text := by
  cases text with
  | nil => simp [exponent?, IsExponent]
  | cons mark rest =>
    simp only [exponent?]
    constructor
    · intro h
      split at h
      · next hm =>
        rw [Option.isSome_map, digits?_isSome_iff] at h
        obtain ⟨sign, hs, hr⟩ := exists_sign rest
        exact Or.inr ⟨mark, sign, (takeSign rest).2, by rw [List.cons_append, ← hr], hm, hs, h⟩
      · simp at h
    · rintro (h | ⟨_, sign, digits, h, hm, hs, hd⟩)
      · simp at h
      · rw [List.cons_append] at h
        obtain ⟨rfl, rfl⟩ := List.cons.inj h
        rw [if_pos hm, takeSign_append hs (not_signFirst_of_isDigits hd.2), Option.isSome_map,
          digits?_isSome_iff]
        exact hd

theorem not_isDigit_of_isExponent {text : List Char} (h : IsExponent text) :
    ∀ c ∈ text.head?, c.isDigit = false ∧ c ≠ '.' := by
  rcases h with rfl | ⟨mark, sign, digits, rfl, rfl | rfl, -⟩
  · simp
  · simp
  · simp

/-! ## Decimals -/

theorem takeWhile_isDigit_append {digits rest : List Char} (h : IsDigits digits)
    (hr : ∀ c ∈ rest.head?, c.isDigit = false) : (digits ++ rest).takeWhile Char.isDigit = digits ∧
      (digits ++ rest).dropWhile Char.isDigit = rest := by
  rw [List.takeWhile_append_of_pos h, List.dropWhile_append_of_pos h]
  cases rest with
  | nil => simp
  | cons c rest => simp [hr c rfl]

theorem takeDigits_append {whole point fraction rest : List Char} (hw : IsDigits whole)
    (hp : IsPoint point fraction) (hf : IsDigits fraction)
    (hr : ∀ c ∈ rest.head?, c.isDigit = false ∧ c ≠ '.') :
    takeDigits (whole ++ point ++ fraction ++ rest) = (whole, fraction, rest) := by
  have hr' : ∀ c ∈ rest.head?, c.isDigit = false := fun c hc => (hr c hc).1
  rcases hp with rfl | ⟨rfl, rfl⟩
  · have dot : ∀ c ∈ ('.' :: (fraction ++ rest)).head?, c.isDigit = false := by simp
    obtain ⟨taken, dropped⟩ := takeWhile_isDigit_append hw dot
    obtain ⟨taken', dropped'⟩ := takeWhile_isDigit_append hf hr'
    simp only [takeDigits, List.append_assoc, List.cons_append, List.nil_append, taken, dropped,
      taken', dropped']
  · obtain ⟨taken, dropped⟩ := takeWhile_isDigit_append hw hr'
    simp only [takeDigits, List.append_nil, taken, dropped]
    split
    · next rest => exact absurd rfl (hr '.' rfl).2
    · rfl

theorem exists_takeDigits (text : List Char) : ∃ whole point fraction rest,
    takeDigits text = (whole, fraction, rest) ∧ text = whole ++ point ++ fraction ++ rest ∧
      IsDigits whole ∧ IsPoint point fraction ∧ IsDigits fraction := by
  have digits (text : List Char) : IsDigits (text.takeWhile Char.isDigit) :=
    fun c hc => List.mem_takeWhile_imp hc
  have split := (List.takeWhile_append_dropWhile (p := Char.isDigit) (l := text)).symm
  unfold takeDigits
  split
  · next rest h =>
    refine ⟨_, ['.'], _, _, rfl, ?_, digits text, Or.inl rfl, digits rest⟩
    rw [List.append_assoc, List.takeWhile_append_dropWhile, List.append_assoc]
    rwa [h] at split
  · exact ⟨_, [], [], _, rfl, by simp, digits text, Or.inr ⟨rfl, rfl⟩, by simp [IsDigits]⟩

theorem decimal?_append {whole point fraction exponent : List Char} (hw : IsDigits whole)
    (hp : IsPoint point fraction) (hf : IsDigits fraction) (hn : ¬ (whole = [] ∧ fraction = []))
    (he : IsExponent exponent) (negative : Bool) :
    decimal? negative (whole ++ point ++ fraction ++ exponent) = (exponent? exponent).map fun e =>
      decimal negative (Nat.ofDigitChars 10 (whole ++ fraction) 0) (e - fraction.length) := by
  unfold decimal?
  rw [takeDigits_append hw hp hf (not_isDigit_of_isExponent he)]
  simp only [if_neg hn]

theorem decimal?_isSome_iff {negative : Bool} {text : List Char} :
    (decimal? negative text).isSome ↔ IsDecimal text := by
  constructor
  · intro h
    obtain ⟨whole, point, fraction, rest, taken, rfl, hw, hp, hf⟩ := exists_takeDigits text
    unfold decimal? at h
    rw [taken] at h
    simp only at h
    split at h
    · simp at h
    · next hn =>
      rw [Option.isSome_map, exponent?_isSome_iff] at h
      exact ⟨whole, point, fraction, rest, rfl, hw, hp, hf, hn, h⟩
  · rintro ⟨whole, point, fraction, exponent, rfl, hw, hp, hf, hn, he⟩
    rw [decimal?_append hw hp hf hn he, Option.isSome_map, exponent?_isSome_iff]
    exact he

/-! ## Numerals -/

theorem not_signFirst_of_isWord {text : List Char} (h : IsWord text) : ¬ SignFirst text := by
  rintro ⟨c, hc, sign⟩
  obtain ⟨rest, rfl⟩ := List.head?_eq_some_iff.1 hc
  rw [IsWord, List.map_cons] at h
  rcases sign with rfl | rfl <;> simp at h

/-- A decimal begins with a digit or with its point. -/
theorem exists_head_of_isDecimal {text : List Char} (h : IsDecimal text) :
    ∃ c rest, text = c :: rest ∧ (c.isDigit ∨ c = '.') := by
  obtain ⟨whole, point, fraction, exponent, rfl, hw, hp, -, hn, -⟩ := h
  cases whole with
  | cons d whole => exact ⟨d, _, rfl, Or.inl (hw d List.mem_cons_self)⟩
  | nil =>
    rcases hp with rfl | ⟨rfl, rfl⟩
    · exact ⟨'.', _, rfl, Or.inr rfl⟩
    · exact absurd ⟨rfl, rfl⟩ hn

theorem not_signFirst_of_isDecimal {text : List Char} (h : IsDecimal text) : ¬ SignFirst text := by
  obtain ⟨c, rest, rfl, first⟩ := exists_head_of_isDecimal h
  rintro ⟨_, ⟨⟩, rfl | rfl⟩ <;> exact absurd first (by decide)

/-- **A text is read exactly when it is a numeral.** -/
theorem parse?_isSome_iff {text : List Char} : (parse? text).isSome ↔ IsNumeral text := by
  constructor
  · intro h
    obtain ⟨sign, hs, ht⟩ := exists_sign text
    refine ⟨sign, (takeSign text).2, ht, hs, ?_⟩
    unfold parse? at h
    simp only at h
    split at h
    · next word => exact Or.inl (by rcases word with word | word <;> simp [IsWord, word])
    · split at h
      · next word => exact Or.inl (by simp [IsWord, word])
      · exact Or.inr (decimal?_isSome_iff.1 h)
  · rintro ⟨sign, body, rfl, hs, hb⟩
    have first : ¬ SignFirst body :=
      hb.elim not_signFirst_of_isWord not_signFirst_of_isDecimal
    unfold parse?
    rw [takeSign_append hs first]
    simp only
    split
    · rfl
    · next notInf =>
      split
      · rfl
      · next notNan =>
        rcases hb with word | number
        · simp only [IsWord, List.mem_cons, List.not_mem_nil, or_false] at word
          exact absurd (word.imp_right (Or.resolve_right · notNan)) notInf
        · exact decimal?_isSome_iff.2 number

instance (text : List Char) : Decidable (IsNumeral text) := decidable_of_iff _ parse?_isSome_iff

end ColumnStats.Numeral
