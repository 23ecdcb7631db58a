import ColumnStats.Proofs.Samples

/-!
# Requests for samples

Which arguments ask for a sample, and how many lines it has.

* `shapeNames`, `IsCount`: the names of shapes and the texts of row counts; `readCount_cases`: **a row
  count is read, or refused for a reason that `Explains` it**;
* `Asks`: what arguments ask for; `ofList_of_asks`: they are read as that;
* `IsSheet`: lines of four fields; `isSheet_records`: **the records of a shape are such lines**, but
  for the middle row where it is broken;
* `IsSample`: the bytes of each kind of sample;
* `arguments_are_checked_first`: **arguments are refused before anything is written**, and a sample
  has the lines that its kind asks for.
-/

namespace ColumnStats

open Text

namespace Sample

/-! ## Names -/

/-- The shapes by name. -/
def shapeNames : List (String × Shape) :=
  [("valid", .valid), ("empty", .empty), ("header-only", .headerOnly), ("single-row", .singleRow),
    ("non-numeric", .nonNumeric), ("short-row", .shortRow), ("blank-line", .blankLine)]

theorem ofName?_eq_some_iff {name : String} {shape : Shape} :
    Shape.ofName? name = some shape ↔ (name, shape) ∈ shapeNames := by
  constructor
  · intro named
    unfold Shape.ofName? at named
    split at named <;> cases named <;> decide
  · intro mem
    have named : ∀ entry ∈ shapeNames, Shape.ofName? entry.1 = some entry.2 := by decide
    exact named _ mem

theorem exists_ofName?_eq_some {name : String} (mem : name ∈ shapeNames.map Prod.fst) :
    ∃ shape, Shape.ofName? name = some shape := by
  obtain ⟨⟨_, shape⟩, entry, rfl⟩ := List.mem_map.1 mem
  exact ⟨shape, ofName?_eq_some_iff.2 entry⟩

theorem ofName?_eq_none {name : String} (other : name ∉ shapeNames.map Prod.fst) :
    Shape.ofName? name = none := by
  rw [Option.eq_none_iff_forall_ne_some]
  exact fun shape named => other (List.mem_map_of_mem (ofName?_eq_some_iff.1 named))

/-! ## Row counts -/

/-- A row count: one or more digits, with an optional plus sign before them. -/
def IsCount (text : List Char) (count : Nat) : Prop :=
  ∃ sign digits, text = sign ++ digits ∧ (sign = [] ∨ sign = ['+']) ∧ digits ≠ [] ∧
    Numeral.IsDigits digits ∧ Numeral.digitsValue digits = count ∧ count < countLimit

/-- Why a text is no row count. The first character that is no digit is to blame, or the digits before
it are too many already; a plus sign at the start is no such character, unless it stands alone. -/
inductive Explains : List Char → CountFault → Prop
  | empty : Explains [] .empty
  | lone : Explains ['+'] .invalidDigit
  | invalidDigit {sign digits rest : List Char} {c : Char} (isSign : sign = [] ∨ sign = ['+'])
    (are : Numeral.IsDigits digits) (small : Numeral.digitsValue digits < countLimit)
    (other : ¬ c.isDigit) (inside : sign ++ digits = [] → c ≠ '+') :
    Explains (sign ++ (digits ++ c :: rest)) .invalidDigit
  | tooLarge {sign digits rest : List Char} (isSign : sign = [] ∨ sign = ['+'])
    (are : Numeral.IsDigits digits) (large : countLimit ≤ Numeral.digitsValue digits) :
    Explains (sign ++ (digits ++ rest)) .tooLarge

/-- Reading ends after all digits, at a character that is no digit, or where the number is too large. -/
theorem readDigits_cases (text : List Char) {count : Nat} (small : count < countLimit) :
    (Numeral.IsDigits text ∧ Nat.ofDigitChars 10 text count < countLimit ∧
      readDigits count text = .ok (Nat.ofDigitChars 10 text count)) ∨
    (∃ digits c rest, text = digits ++ c :: rest ∧ Numeral.IsDigits digits ∧
      Nat.ofDigitChars 10 digits count < countLimit ∧ ¬ c.isDigit ∧
      readDigits count text = .error .invalidDigit) ∨
    ∃ digits rest, text = digits ++ rest ∧ Numeral.IsDigits digits ∧
      countLimit ≤ Nat.ofDigitChars 10 digits count ∧ readDigits count text = .error .tooLarge := by
  induction text generalizing count with
  | nil => exact Or.inl ⟨List.forall_mem_nil _, small, rfl⟩
  | cons c text ih =>
    by_cases digit : c.isDigit
    · rw [readDigits, if_pos digit]
      by_cases next : 10 * count + (c.toNat - '0'.toNat) < countLimit
      · simp only [if_pos next]
        have are {digits : List Char} (h : Numeral.IsDigits digits) :
            Numeral.IsDigits (c :: digits) := List.forall_mem_cons.2 ⟨digit, h⟩
        rcases ih next with ⟨h, below, e⟩ | ⟨digits, d, rest, rfl, h, below, other, e⟩ |
          ⟨digits, rest, rfl, h, large, e⟩
        · exact Or.inl ⟨are h, below, e⟩
        · exact Or.inr (Or.inl ⟨c :: digits, d, rest, rfl, are h, below, other, e⟩)
        · exact Or.inr (Or.inr ⟨c :: digits, rest, rfl, are h, large, e⟩)
      · have alone : Numeral.IsDigits [c] := List.forall_mem_singleton.2 digit
        refine Or.inr (Or.inr ⟨[c], text, rfl, alone, Nat.not_lt.1 next, ?_⟩)
        simp only [if_neg next]
    · rw [readDigits, if_neg digit]
      exact Or.inr (Or.inl ⟨[], c, text, rfl, List.forall_mem_nil _, small, digit, rfl⟩)

theorem exists_sign_of_text (text : List Char) : text = [] ∨ text = ['+'] ∨
    ∃ sign rest, text = sign ++ rest ∧ (sign = [] ∨ sign = ['+']) ∧ rest ≠ [] ∧
      (sign = [] → rest.head? ≠ some '+') := by
  cases text with
  | nil => exact Or.inl rfl
  | cons c rest =>
    right
    by_cases plus : c = '+'
    · subst plus
      by_cases lone : rest = []
      · exact Or.inl (by rw [lone])
      · exact Or.inr ⟨['+'], rest, rfl, Or.inr rfl, lone, fun none => absurd none (by decide)⟩
    · refine Or.inr ⟨[], c :: rest, rfl, Or.inl rfl, by simp, fun _ => ?_⟩
      rwa [List.head?_cons, ne_eq, Option.some_inj]

/-- **A row count is read, or it is refused for a reason.** -/
theorem readCount_cases (text : List Char) :
    (∃ count, IsCount text count ∧ readCount text = .ok count) ∨
      ∃ fault, Explains text fault ∧ readCount text = .error fault := by
  rcases exists_sign_of_text text with rfl | rfl | ⟨sign, rest, rfl, isSign, nonempty, first⟩
  · exact Or.inr ⟨_, .empty, rfl⟩
  · exact Or.inr ⟨_, .lone, rfl⟩
  rw [readCount_append isSign nonempty first]
  have zero : 0 < countLimit := by decide
  rcases readDigits_cases rest zero with ⟨are, small, e⟩ |
    ⟨digits, c, after, rfl, are, small, other, e⟩ | ⟨digits, after, rfl, are, large, e⟩
  · exact Or.inl ⟨_, ⟨sign, rest, rfl, isSign, nonempty, are, rfl, small⟩, e⟩
  · refine Or.inr ⟨_, .invalidDigit isSign are small other fun start => ?_, e⟩
    obtain ⟨rfl, rfl⟩ := List.append_eq_nil_iff.1 start
    simpa using first rfl
  · exact Or.inr ⟨_, .tooLarge isSign are large, e⟩

theorem readCount_eq_ok_iff {text : List Char} {count : Nat} :
    readCount text = .ok count ↔ IsCount text count := by
  constructor
  · intro read
    rcases readCount_cases text with ⟨other, isCount, e⟩ | ⟨fault, -, e⟩
    · obtain rfl : other = count := Except.ok.inj (e.symm.trans read)
      exact isCount
    · cases e.symm.trans read
  · rintro ⟨sign, digits, rfl, isSign, nonempty, are, rfl, small⟩
    rw [readCount_append isSign nonempty fun _ => head?_ne_plus are]
    exact readDigits_eq_ok are small

/-! ## Arguments -/

/-- The name and the row count that arguments ask for. What is left out is a whole table of 30 rows, and
arguments after the second do not matter. -/
inductive Asks : List String → String → Nat → Prop
  | nothing : Asks [] "valid" 30
  | named {name : String} (mem : name ∈ shapeNames.map Prod.fst) : Asks [name] name 30
  | counted {name text : String} {rest : List String} {count : Nat}
    (mem : name ∈ shapeNames.map Prod.fst) (isCount : IsCount text.toList count) :
    Asks (name :: text :: rest) name count

theorem ofList_of_asks {arguments : List String} {name : String} {count : Nat}
    (h : Asks arguments name count) : ∃ shape, (name, shape) ∈ shapeNames ∧
      Arguments.ofList arguments = .ok { shape, rows := count } := by
  cases h with
  | nothing => exact ⟨.valid, by decide, rfl⟩
  | named mem =>
    obtain ⟨shape, named⟩ := exists_ofName?_eq_some mem
    exact ⟨shape, ofName?_eq_some_iff.1 named, by simp only [Arguments.ofList, named]⟩
  | counted mem isCount =>
    obtain ⟨shape, named⟩ := exists_ofName?_eq_some mem
    refine ⟨shape, ofName?_eq_some_iff.1 named, ?_⟩
    simp only [Arguments.ofList, named, readCount_eq_ok_iff.2 isCount]

/-! ## Lines -/

/-- A header and as many rows as that, each a line of four fields parted by commas. The line that may be
broken, counted from zero, can have another number of fields. -/
def IsSheet (rows : Nat) (broken : Option Nat) (bytes : List UInt8) : Prop :=
  ∃ records : List (List (List Char)), bytes = plain ',' records ∧ records.length = 1 + rows ∧
    (∀ record ∈ records, IsRenderable ',' record) ∧
    ∀ line record, records[line]? = some record → broken ≠ some line → record.length = 4

theorem length_records (shape : Shape) (count : Nat) : (records shape count).length = 1 + count := by
  rw [records, rows_eq_map, List.length_cons, List.length_map, List.length_range, Nat.add_comm]

theorem length_of_getElem?_records {shape : Shape} {count line : Nat} {record : List String}
    (found : (records shape count)[line]? = some record)
    (whole : (∀ fields, breakRow shape fields = fields) ∨ line ≠ count / 2 + 1) :
    record.length = 4 := by
  rw [records, rows_eq_map] at found
  cases line with
  | zero =>
    obtain rfl := Option.some_inj.1 found
    rfl
  | succ index =>
    rw [List.getElem?_cons_succ, List.getElem?_map, Option.map_eq_some_iff] at found
    obtain ⟨number, here, rfl⟩ := found
    obtain ⟨_, rfl⟩ := List.getElem?_eq_some_iff.1 here
    rw [List.getElem_range]
    have kept : (if index = count / 2 then breakRow shape (row index) else row index) =
        row index := by
      rcases whole with unbroken | elsewhere
      · rw [unbroken, ite_self]
      · exact if_neg fun middle => elsewhere (congrArg (· + 1) middle)
    rw [kept]
    exact length_row index

/-- **The records of a shape are a header and rows of four fields**, but for the broken row. -/
theorem isSheet_records {shape : Shape} {count : Nat} {broken : Option Nat}
    (whole : (∀ fields, breakRow shape fields = fields) ∨ broken = some (count / 2 + 1)) :
    IsSheet count broken (plain ',' ((records shape count).map (List.map String.toList))) := by
  refine ⟨_, rfl, ?_, fun record mem => ?_, fun line record found other => ?_⟩
  · rw [List.length_map, length_records]
  · exact isRenderable_of_bare (isBare_of_mem_lineFields (List.mem_append_left _ mem))
  · rw [List.getElem?_map, Option.map_eq_some_iff] at found
    obtain ⟨texts, here, rfl⟩ := found
    rw [List.length_map]
    refine length_of_getElem?_records here (whole.imp_right fun middle here => other ?_)
    rw [middle, here]

/-- The bytes of the sample with a name, for a row count. -/
inductive IsSample (count : Nat) : String → List UInt8 → Prop
  | empty : IsSample count "empty" []
  | headerOnly {bytes : List UInt8} (sheet : IsSheet 0 none bytes) :
    IsSample count "header-only" bytes
  | singleRow {bytes : List UInt8} (sheet : IsSheet 1 none bytes) : IsSample count "single-row" bytes
  | valid {bytes : List UInt8} (sheet : IsSheet count none bytes) : IsSample count "valid" bytes
  | blankLine {bytes : List UInt8} (sheet : IsSheet count none bytes) :
    IsSample count "blank-line" (bytes ++ [lineFeed])
  | nonNumeric {bytes : List UInt8}
    (sheet : IsSheet (max count 3) (some (max count 3 / 2 + 1)) bytes) :
    IsSample count "non-numeric" bytes
  | shortRow {bytes : List UInt8}
    (sheet : IsSheet (max count 3) (some (max count 3 / 2 + 1)) bytes) :
    IsSample count "short-row" bytes

theorem flatMap_blocks_of_ended {shape : Shape} (nonempty : shape ≠ .empty)
    (ended : shape ≠ .blankLine) (count : Nat) : (Command.blocks shape count).flatten.flatMap encode =
      plain ',' ((records shape count).map (List.map String.toList)) := by
  rw [flatMap_blocks nonempty, lineFields, if_neg ended, List.append_nil]

/-- **The command writes the sample with a name.** -/
theorem isSample_blocks {name : String} {shape : Shape} (mem : (name, shape) ∈ shapeNames)
    (count : Nat) : IsSample count name
      ((Command.blocks shape (shape.rowCount count)).flatten.flatMap encode) := by
  have unbroken {shape : Shape} (rows : Nat) (h : ∀ fields, breakRow shape fields = fields) :=
    @isSheet_records shape rows none (Or.inl h)
  have broken (shape : Shape) (rows : Nat) :=
    @isSheet_records shape rows (some (rows / 2 + 1)) (Or.inr rfl)
  simp only [shapeNames, List.mem_cons, Prod.mk.injEq, List.not_mem_nil, or_false] at mem
  rcases mem with ⟨rfl, rfl⟩ | ⟨rfl, rfl⟩ | ⟨rfl, rfl⟩ | ⟨rfl, rfl⟩ | ⟨rfl, rfl⟩ | ⟨rfl, rfl⟩ |
    ⟨rfl, rfl⟩
  · rw [flatMap_blocks_of_ended (by decide) (by decide)]
    exact .valid (unbroken _ fun _ => rfl)
  · exact .empty
  · rw [flatMap_blocks_of_ended (by decide) (by decide)]
    exact .headerOnly (unbroken _ fun _ => rfl)
  · rw [flatMap_blocks_of_ended (by decide) (by decide)]
    exact .singleRow (unbroken _ fun _ => rfl)
  · rw [flatMap_blocks_of_ended (by decide) (by decide)]
    exact .nonNumeric (broken .nonNumeric _)
  · rw [flatMap_blocks_of_ended (by decide) (by decide)]
    exact .shortRow (broken .shortRow _)
  · rw [flatMap_blocks (by decide), lineFields, plain_append, if_pos rfl]
    exact .blankLine (unbroken _ fun _ => rfl)

end Sample

/-! ## The command -/

namespace Command

open Sample

theorem sample_of_refused {arguments : List String} {fault : ArgumentFault}
    (refused : Arguments.ofList arguments = .error fault) : sample (threshold none) .pipe arguments =
      ⟨1, [], failureText fault.message fault.cause?⟩ := by
  rw [sample, refused]

theorem failureText_unknownShape (name : String) :
    failureText (ArgumentFault.unknownShape name).message (ArgumentFault.unknownShape name).cause? =
      "Error: unknown case '" ++ name ++ "'\n" := by
  apply String.toList_injective
  simp [failureText, ArgumentFault.message, ArgumentFault.cause?, toString]

theorem failureText_rowCount (text : String) (fault : CountFault) :
    failureText (ArgumentFault.rowCount text fault).message
        (ArgumentFault.rowCount text fault).cause? =
      "Error: row count '" ++ text ++ "' is not a non-negative integer\n" ++
        "\nCaused by:\n    " ++ fault.text ++ "\n" := by
  apply String.toList_injective
  simp [failureText, ArgumentFault.message, ArgumentFault.cause?, toString]

/-- **Arguments are refused before anything is written**, the name first. All others are answered
with a sample that has the lines of its kind. -/
theorem arguments_are_checked_first :
    (∀ name rest, name ∉ shapeNames.map Prod.fst →
      sample (threshold none) .pipe (name :: rest) =
        ⟨1, [], "Error: unknown case '" ++ name ++ "'\n"⟩) ∧
    (∀ name text rest, name ∈ shapeNames.map Prod.fst →
      (¬ ∃ count, IsCount text.toList count) → ∃ fault, Explains text.toList fault ∧
        sample (threshold none) .pipe (name :: text :: rest) =
          ⟨1, [], "Error: row count '" ++ text ++ "' is not a non-negative integer\n" ++
            "\nCaused by:\n    " ++ fault.text ++ "\n"⟩) ∧
    ∀ arguments name count, Asks arguments name count →
      ∃ bytes, sample (threshold none) .pipe arguments = ⟨0, bytes, ""⟩ ∧
        IsSample count name bytes := by
  refine ⟨fun name rest other => ?_, fun name text rest mem bad => ?_,
    fun arguments name count asks => ?_⟩
  · have refused : Arguments.ofList (name :: rest) = .error (.unknownShape name) := by
      simp only [Arguments.ofList, ofName?_eq_none other]
    rw [sample_of_refused refused, failureText_unknownShape]
  · obtain ⟨shape, named⟩ := exists_ofName?_eq_some mem
    obtain ⟨fault, explains, e⟩ := (readCount_cases text.toList).resolve_left fun read =>
      bad (read.imp fun _ => And.left)
    have refused : Arguments.ofList (name :: text :: rest) = .error (.rowCount text fault) := by
      simp only [Arguments.ofList, named, e]
    refine ⟨fault, explains, ?_⟩
    rw [sample_of_refused refused, failureText_rowCount]
  · obtain ⟨shape, mem, read⟩ := ofList_of_asks asks
    exact ⟨_, sample_eq read, isSample_blocks mem count⟩

/-- A shape is not known in capitals, a negative row count is refused although nothing would be written
for it, and a signed one with zeros before it is granted. -/
theorem arguments_of_each_kind :
    "Valid" ∉ shapeNames.map Prod.fst ∧
    sample (threshold none) .pipe ["Valid", "-1"] = ⟨1, [], "Error: unknown case 'Valid'\n"⟩ ∧
    "empty" ∈ shapeNames.map Prod.fst ∧ (¬ ∃ count, IsCount "-1".toList count) ∧
    (∃ fault, Explains "-1".toList fault ∧ sample (threshold none) .pipe ["empty", "-1"] =
      ⟨1, [], "Error: row count '" ++ "-1" ++ "' is not a non-negative integer\n" ++
        "\nCaused by:\n    " ++ fault.text ++ "\n"⟩) ∧
    Asks ["short-row", "+002", "x"] "short-row" 2 ∧
    ∃ bytes, sample (threshold none) .pipe ["short-row", "+002", "x"] = ⟨0, bytes, ""⟩ ∧
      IsSample 2 "short-row" bytes := by
  obtain ⟨named, counted, granted⟩ := arguments_are_checked_first
  have negative : ¬ ∃ count, IsCount "-1".toList count := by
    rintro ⟨count, isCount⟩
    have refused : readCount "-1".toList = .error .invalidDigit := by decide
    cases refused.symm.trans (readCount_eq_ok_iff.2 isCount)
  have asks : Asks ["short-row", "+002", "x"] "short-row" 2 :=
    .counted (by decide) (readCount_eq_ok_iff.1 (by decide))
  exact ⟨by decide, named "Valid" ["-1"] (by decide), by decide, negative,
    counted "empty" "-1" [] (by decide) negative, asks, granted _ _ _ asks⟩

end Command

end ColumnStats
