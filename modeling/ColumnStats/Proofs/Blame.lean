import ColumnStats.Proofs.Report
import ColumnStats.Proofs.Runs
import Mathlib.Order.Bounds.Basic

/-!
# The line to blame

The first line at fault ends a run, and what follows it does not matter.

* `Offends`: the numbers of the lines at fault; `Blames`: what is said about such a line;
* `not_offends_of_isRow`: the lines before the end of a run are not at fault;
* `Ends.blames`: the line that ends a run is;
* `Stops`: a run that stops at a line or at a failure; `Stops.blames`: a line there is the first one
  at fault;
* `first_offending_line_decides`: **the first line at fault decides the fault**, and without one the
  table has too few rows.
-/

namespace ColumnStats

open Text

/-! ## Lines at fault -/

/-- The line with this number, counted from one, is no text, or it is a row that has a field that is
no numeral or another number of fields than the header. -/
inductive Offends (delimiter : Char) (lines : List (List UInt8)) : Nat → Prop
  | notText {position : Nat} {line : List UInt8} (here : lines[position]? = some line)
    (bad : ¬ IsText line) : Offends delimiter lines (position + 1)
  | notNumber {position : Nat} {text : String} {record : List (List Char)} {field : List Char}
    (here : lines[position + 1]? = some (encode text)) (fields : IsRecord delimiter text record)
    (mem : field ∈ record) (bad : ¬ Numeral.IsNumeral field) :
    Offends delimiter lines (position + 2)
  | width {position : Nat} {header text : String} {labels record : List (List Char)}
    (first : lines[0]? = some (encode header)) (names : IsRecord delimiter header labels)
    (here : lines[position + 1]? = some (encode text)) (fields : IsRecord delimiter text record)
    (bad : record.length ≠ labels.length) : Offends delimiter lines (position + 2)

/-- What is said about the line at fault with this number. -/
inductive Blames (delimiter : Char) (lines : List (List UInt8)) (number : Nat) : Fault → Prop
  | notText {line : List UInt8} (here : lines[number - 1]? = some line) (bad : ¬ IsText line) :
    Blames delimiter lines number (.unreadable .notText)
  | row {header text : String} {labels record : List (List Char)} {fault : Fault}
    (first : lines[0]? = some (encode header)) (names : IsRecord delimiter header labels)
    (here : lines[number - 1]? = some (encode text)) (fields : IsRecord delimiter text record)
    (verdict : Verdict (labels.map String.ofList) number record (.error fault)) :
    Blames delimiter lines number fault

variable {delimiter : Char} {lines : List (List UInt8)} {header : String} {texts : List String}

theorem getElem?_map_encode_append {rest : List (List UInt8)} {position : Nat} {line : List UInt8}
    (inside : position < texts.length) (here : (texts.map encode ++ rest)[position]? = some line) :
    ∃ text ∈ texts, encode text = line := by
  rw [List.getElem?_append_left (by rwa [List.length_map]), List.getElem?_map,
    Option.map_eq_some_iff] at here
  obtain ⟨text, ht, e⟩ := here
  exact ⟨text, List.mem_of_getElem? ht, e⟩

theorem not_offends_of_isRow {rest : List (List UInt8)} {rows : List (List Binary64)}
    (are : List.Forall₂ (Collector.IsRow delimiter (fields delimiter header).length) texts rows)
    {number : Nat} (inside : number ≤ texts.length + 1) :
    ¬ Offends delimiter ((header :: texts).map encode ++ rest) number := by
  have good := Collector.forall_mem_of_isRow are
  intro offends
  cases offends with
  | notText here bad =>
    obtain ⟨text, -, rfl⟩ := getElem?_map_encode_append (by simp; omega) here
    exact bad ⟨text, rfl⟩
  | notNumber here fields mem bad =>
    rw [List.map_cons, List.cons_append, List.getElem?_cons_succ] at here
    obtain ⟨text, ht, e⟩ := getElem?_map_encode_append (by omega) here
    obtain rfl := encode_injective e
    obtain rfl := isRecord_iff.1 fields
    exact bad ((good text ht).2 _ mem)
  | width first names here fields bad =>
    rw [List.map_cons, List.cons_append, List.getElem?_cons_zero, Option.some_inj] at first
    rw [List.map_cons, List.cons_append, List.getElem?_cons_succ] at here
    obtain ⟨text, ht, e⟩ := getElem?_map_encode_append (by omega) here
    obtain rfl := encode_injective e
    obtain rfl := encode_injective first
    obtain rfl := isRecord_iff.1 fields
    obtain rfl := isRecord_iff.1 names
    exact bad (good text ht).1

theorem Ends.blames {line : List UInt8} {fault : Fault}
    (h : Ends delimiter ((fields delimiter header).map String.ofList) (texts.length + 2)
      (readLine line) fault) (after : List (List UInt8)) :
    Offends delimiter ((header :: texts).map encode ++ line :: after) (texts.length + 2) ∧
      Blames delimiter ((header :: texts).map encode ++ line :: after) (texts.length + 2) fault := by
  have here : ((header :: texts).map encode ++ line :: after)[texts.length + 1]? = some line := by
    simp
  cases hr : readLine line with
  | error failure =>
    obtain ⟨bad, rfl⟩ := readLine_eq_error_iff.1 hr
    rw [hr] at h
    cases h
    exact ⟨.notText here bad, .notText here bad⟩
  | ok text =>
    obtain rfl := readLine_eq_ok_iff.1 hr
    rw [hr] at h
    cases h with
    | refused verdict =>
      refine ⟨?_, .row rfl (isRecord_iff.2 rfl) here (isRecord_iff.2 rfl) verdict⟩
      cases verdict with
      | notNumber split _ bad _ =>
        exact .notNumber here (isRecord_iff.2 rfl) (by rw [split]; simp) bad
      | width _ width =>
        rw [List.length_map] at width
        exact .width rfl (isRecord_iff.2 rfl) here (isRecord_iff.2 rfl) width

theorem Offends.pos {number : Nat} (h : Offends delimiter lines number) : 1 ≤ number := by
  cases h <;> omega

theorem Offends.le_length {number : Nat} (h : Offends delimiter lines number) :
    number ≤ lines.length := by
  cases h with
  | notText here => exact (List.getElem?_eq_some_iff.1 here).1
  | notNumber here => exact (List.getElem?_eq_some_iff.1 here).1
  | width _ _ here => exact (List.getElem?_eq_some_iff.1 here).1

/-! ## Runs that stop -/

/-- The run stops with `fault` at the line after `before`, which is at fault if it is a line. -/
structure Stops (settings : Settings) (source : Source) (sink : Sink) (before : List String)
    (bad : Except ReadFailure String) (fault : Fault) : Prop where
  lines : ∃ rest, source.lines = before.map .ok ++ bad :: rest
  run : ∃ events, ∀ (other : Source) (rest : List (Except ReadFailure String)),
    other.lines = before.map .ok ++ bad :: rest →
    analyze settings other sink = ⟨.error fault, sink, events⟩
  early : ∀ (rest : List (List UInt8)) (number : Nat), number ≤ before.length →
    ¬ Offends (Char.ofUInt8 settings.delimiter) (before.map encode ++ rest) number
  late : ∀ (line : List UInt8) (after : List (List UInt8)), readLine line = bad →
    Offends (Char.ofUInt8 settings.delimiter) (before.map encode ++ line :: after)
        (before.length + 1) ∧
      Blames (Char.ofUInt8 settings.delimiter) (before.map encode ++ line :: after)
        (before.length + 1) fault
  unreadable : ∀ failure, bad = .error failure → fault = .unreadable failure

namespace Stops

variable {settings : Settings} {source : Source} {sink : Sink} {before : List String}
  {bad : Except ReadFailure String} {fault : Fault}

theorem of_noHeader {failure : ReadFailure} {rest : List (Except ReadFailure String)}
    (lines : source.lines = .error failure :: rest)
    (run : ∀ (other : Source) (rest' : List (Except ReadFailure String)),
      other.lines = .error failure :: rest' →
      analyze settings other sink = ⟨.error (.unreadable failure), sink, []⟩) :
    Stops settings source sink [] (.error failure) (.unreadable failure) where
  lines := ⟨rest, lines⟩
  run := ⟨[], run⟩
  early := by
    intro rest number inside offends
    have := offends.pos
    rw [List.length_nil] at inside
    omega
  late := by
    intro line after hr
    obtain ⟨bad, rfl⟩ := readLine_eq_error_iff.1 hr
    exact ⟨.notText rfl bad, .notText rfl bad⟩
  unreadable := by
    rintro _ ⟨⟩
    rfl

theorem of_ended {header : String} {texts : List String} {new : List (List Binary64)}
    {rest : List (Except ReadFailure String)}
    (lines : source.lines = (header :: texts).map .ok ++ bad :: rest)
    (rows : List.Forall₂ (Collector.IsRow (Char.ofUInt8 settings.delimiter)
      (fields (Char.ofUInt8 settings.delimiter) header).length) texts new)
    (ends : Ends (Char.ofUInt8 settings.delimiter)
      ((fields (Char.ofUInt8 settings.delimiter) header).map String.ofList) (texts.length + 2)
      bad fault)
    (run : ∃ events, ∀ (other : Source) (rest' : List (Except ReadFailure String)),
      other.lines = (header :: texts).map .ok ++ bad :: rest' →
      analyze settings other sink = ⟨.error fault, sink, events⟩) :
    Stops settings source sink (header :: texts) bad fault where
  lines := ⟨rest, lines⟩
  run := run
  early := fun _ _ inside => not_offends_of_isRow rows inside
  late := by
    rintro line after rfl
    exact ends.blames after
  unreadable := by
    rintro failure rfl
    cases ends
    rfl

theorem blames (h : Stops settings source sink before bad fault) {lines : List (List UInt8)}
    {rest : List (Except ReadFailure String)}
    (read : lines.map readLine = before.map .ok ++ bad :: rest) :
    IsLeast {n | Offends (Char.ofUInt8 settings.delimiter) lines n} (before.length + 1) ∧
      Blames (Char.ofUInt8 settings.delimiter) lines (before.length + 1) fault := by
  obtain ⟨line, after, rfl, hr⟩ := exists_line_of_map_readLine read
  obtain ⟨offends, blames⟩ := h.late line after hr
  refine ⟨⟨offends, fun number early => ?_⟩, blames⟩
  by_contra inside
  exact h.early _ number (by omega) early

theorem outcome_eq (h : Stops settings source sink before bad fault) :
    (analyze settings source sink).outcome = .error fault := by
  obtain ⟨rest, lines⟩ := h.lines
  obtain ⟨events, run⟩ := h.run
  rw [run source rest lines]

/-- What follows the line that ends the run does not matter. -/
theorem analyze_append {bytes : List UInt8}
    (h : Stops settings ⟨bytes, none⟩ sink before bad fault) {head rest : List UInt8}
    (split : bytes = head ++ rest) (enough : before.length + 1 ≤ head.count lineFeed)
    (rest' : List UInt8) :
    analyze settings ⟨head ++ rest', none⟩ sink = analyze settings ⟨bytes, none⟩ sink := by
  obtain ⟨after, lines⟩ := h.lines
  obtain ⟨events, run⟩ := h.run
  have same : (⟨head ++ rest', none⟩ : Source).lines.take (before.length + 1) =
      before.map .ok ++ [bad] := by
    have first : (⟨head ++ rest', none⟩ : Source).lines.take (before.length + 1) =
        (⟨bytes, none⟩ : Source).lines.take (before.length + 1) := by
      rw [split]
      simp only [Source.lines, Source.fault?, Option.filter_none, ← List.map_take,
        take_lineBytes_append enough rest' rest]
    rw [first, lines]
    simp [List.take_append, List.take_of_length_le]
  have lines' :=
    (List.take_append_drop (before.length + 1) (⟨head ++ rest', none⟩ : Source).lines).symm
  rw [same, List.append_assoc] at lines'
  rw [run _ _ lines', run _ _ lines]

end Stops

/-! ## Runs that fail -/

variable {settings : Settings} {bytes : List UInt8} {sink : Sink} {fault : Fault}

theorem Stops.exists_blame {before : List String} {bad : Except ReadFailure String} {fault' : Fault}
    (h : Stops settings ⟨bytes, none⟩ sink before bad fault')
    (failed : (analyze settings ⟨bytes, none⟩ sink).outcome = .error fault) :
    ∃ number, IsLeast {n | Offends (Char.ofUInt8 settings.delimiter) (lineBytes bytes) n} number ∧
      Blames (Char.ofUInt8 settings.delimiter) (lineBytes bytes) number fault ∧
      ∀ head rest rest', bytes = head ++ rest → number ≤ head.count lineFeed →
        analyze settings ⟨head ++ rest', none⟩ sink = analyze settings ⟨bytes, none⟩ sink := by
  obtain rfl : fault' = fault := Except.error.inj (h.outcome_eq.symm.trans failed)
  obtain ⟨rest, lines⟩ := h.lines
  obtain ⟨least, blames⟩ := h.blames lines
  exact ⟨before.length + 1, least, blames,
    fun head rest rest' split enough => h.analyze_append split enough rest'⟩

theorem exists_blame (unfailing : sink.Unfailing)
    (failed : (analyze settings ⟨bytes, none⟩ sink).outcome = .error fault) :
    (∃ number, IsLeast {n | Offends (Char.ofUInt8 settings.delimiter) (lineBytes bytes) n} number ∧
      Blames (Char.ofUInt8 settings.delimiter) (lineBytes bytes) number fault ∧
      ∀ head rest rest', bytes = head ++ rest → number ≤ head.count lineFeed →
        analyze settings ⟨head ++ rest', none⟩ sink = analyze settings ⟨bytes, none⟩ sink) ∨
    (∀ number, ¬ Offends (Char.ofUInt8 settings.delimiter) (lineBytes bytes) number) ∧
      ∃ header label labels, (lineBytes bytes).head? = some (encode header) ∧
        IsRecord (Char.ofUInt8 settings.delimiter) header (label :: labels) ∧
        ((lineBytes bytes).length = 1 ∨ (lineBytes bytes).length = 2) ∧
        fault = .tooFew (String.ofList label) ((lineBytes bytes).length - 1) := by
  cases course_analyze settings ⟨bytes, none⟩ sink with
  | noLine lines run => simp [run] at failed
  | noHeader lines run => exact Or.inl ((Stops.of_noHeader lines run).exists_blame failed)
  | ended lines rows ends run => exact Or.inl ((Stops.of_ended lines rows ends run).exists_blame failed)
  | @report header texts rows table lines are holds outcome written =>
    right
    have e := Source.lineBytes_eq_of_lines_eq lines
    have length : (lineBytes bytes).length = rows.length + 1 := by
      rw [e, List.length_map, List.length_cons, are.length_eq]
    rw [outcome] at failed
    rcases holds.report_cases unfailing settings.z with ⟨few, label, labels, split, fault', -⟩ |
      ⟨-, summaries, -, fault', -⟩
    · obtain rfl : _ = fault := by simpa [fault'] using failed
      refine ⟨fun number offends => ?_, header, label, labels, by rw [e]; rfl,
        isRecord_iff.2 split.symm, by omega, by rw [length]; rfl⟩
      have inside := offends.le_length
      rw [length, ← are.length_eq] at inside
      rw [e, ← List.append_nil (List.map _ _)] at offends
      exact not_offends_of_isRow are inside offends
    · simp [fault'] at failed

/-- **The first line at fault decides the fault**, whatever follows it. Without one, the table has
too few rows, and its first column is named. -/
theorem first_offending_line_decides (settings : Settings) {bytes : List UInt8}
    {lines : List (List UInt8)} (layout : IsLines bytes lines) {sink : Sink}
    (unfailing : sink.Unfailing) {fault : Fault}
    (failed : (analyze settings ⟨bytes, none⟩ sink).outcome = .error fault) :
    (∀ number, IsLeast {n | Offends (Char.ofUInt8 settings.delimiter) lines n} number →
      Blames (Char.ofUInt8 settings.delimiter) lines number fault ∧
      ∀ head rest rest', bytes = head ++ rest → number ≤ head.count lineFeed →
        analyze settings ⟨head ++ rest', none⟩ sink = analyze settings ⟨bytes, none⟩ sink) ∧
    ((∀ number, ¬ Offends (Char.ofUInt8 settings.delimiter) lines number) →
      ∃ header label labels, lines.head? = some (encode header) ∧
        IsRecord (Char.ofUInt8 settings.delimiter) header (label :: labels) ∧
        (lines.length = 1 ∨ lines.length = 2) ∧
        fault = .tooFew (String.ofList label) (lines.length - 1)) := by
  obtain rfl := isLines_iff.1 layout
  rcases exists_blame unfailing failed with ⟨number, least, blames, same⟩ | ⟨none, few⟩
  · refine ⟨fun number' least' => ?_, fun none => absurd least.1 (none number)⟩
    obtain rfl := least.unique least'
    exact ⟨blames, same⟩
  · exact ⟨fun number least => absurd least.1 (none number), fun _ => few⟩

theorem third_line_decides :
    IsLines (encode "a\n1\n2,x\n3") [encode "a", encode "1", encode "2,x", encode "3"] ∧
    ({} : Sink).Unfailing ∧
    (analyze {} ⟨encode "a\n1\n2,x\n3", none⟩ {}).outcome = .error (.notNumber 3 "#2" "x") ∧
    Blames ',' [encode "a", encode "1", encode "2,x", encode "3"] 3 (.notNumber 3 "#2" "x") ∧
    analyze {} ⟨encode "a\n1\n2,x\n", none⟩ {} =
      analyze {} ⟨encode "a\n1\n2,x\n3", none⟩ {} := by
  have layout : IsLines (encode "a\n1\n2,x\n3")
      [encode "a", encode "1", encode "2,x", encode "3"] := by decide
  have unfailing : ({} : Sink).Unfailing := ⟨rfl, rfl⟩
  have failed : (analyze {} ⟨encode "a\n1\n2,x\n3", none⟩ {}).outcome =
      .error (.notNumber 3 "#2" "x") := by rfl
  obtain ⟨row, reads⟩ := exists_readsAs_iff.2
    (by decide : ∀ field ∈ fields ',' "1", Numeral.IsNumeral field)
  have are : List.Forall₂ (Collector.IsRow ',' (fields ',' "a").length) ["1"] [row] :=
    .cons ⟨reads, reads.length_eq.symm⟩ .nil
  have offends : Offends ',' [encode "a", encode "1", encode "2,x", encode "3"] 3 :=
    @Offends.notNumber _ _ 1 "2,x" _ ['x'] rfl (isRecord_iff.2 rfl) (by decide) (by decide)
  have least : IsLeast {n | Offends ',' [encode "a", encode "1", encode "2,x", encode "3"] n} 3 := by
    refine ⟨offends, fun n early => ?_⟩
    by_contra inside
    exact not_offends_of_isRow are (by simp; omega) early
  have decides := (first_offending_line_decides {} layout unfailing failed).1 3 least
  have same := decides.2 (encode "a\n1\n2,x\n") (encode "3") [] (by decide) (by decide)
  exact ⟨layout, unfailing, failed, decides.1, same⟩

end ColumnStats
