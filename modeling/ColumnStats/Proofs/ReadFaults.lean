import ColumnStats.Proofs.Blame

/-!
# Sources that fail

A source may fail after any of its bytes: within a line, between the two bytes of a line end, or
within a character. An interruption is tried again; any other failure ends the run.

* `Source.lines_eq_readLines`: **the lines of a source are those read byte by byte**, a failure in
  the place of the line that it cuts short;
* `Stops.of_fault`: a failing source always stops the run;
* `read_fault_ends_run`: **the first line at fault before the failure decides, or else the
  failure**; nothing is written, and what lies behind the failure does not matter.
-/

namespace ColumnStats

open Text

/-! ## Reading byte by byte -/

/-- What the device hands over, one after the other: bytes, and a failure on the way. -/
def Source.deliveries (source : Source) : List (Except DeviceFailure UInt8) :=
  match source.fault with
  | none => source.bytes.map .ok
  | some fault =>
    if fault.position ≤ source.bytes.length then
      (source.bytes.take fault.position).map .ok ++
        .error fault.failure :: (source.bytes.drop fault.position).map .ok
    else source.bytes.map .ok

/-- Reads lines byte by byte, after the bytes `line` of the present one. -/
def readLines (line : List UInt8) :
    List (Except DeviceFailure UInt8) → List (Except ReadFailure String)
  | [] => if line = [] then [] else [readLine line]
  | .ok byte :: rest =>
    if byte = lineFeed then readLine (dropReturn line) :: readLines [] rest
    else readLines (line ++ [byte]) rest
  | .error failure :: rest =>
    if failure.kind = .interrupted then readLines line rest else [.error (.device failure)]

theorem readLines_map_ok {line : List UInt8} (unbroken : lineFeed ∉ line) (bytes : List UInt8) :
    readLines line (bytes.map .ok) = (lineBytes (line ++ bytes)).map readLine := by
  induction bytes generalizing line with
  | nil =>
    rw [List.map_nil, readLines, List.append_nil]
    split
    · next empty => rw [empty, lineBytes_nil, List.map_nil]
    · next nonempty => rw [lineBytes_of_unbroken nonempty unbroken, List.map_singleton]
  | cons byte bytes ih =>
    rw [List.map_cons, readLines]
    split
    · next feed =>
      rw [feed, lineBytes_append_lineFeed unbroken, List.map_cons, ih List.not_mem_nil,
        List.nil_append]
    · next other =>
      rw [ih (lineFeed_notMem_concat unbroken other), List.append_assoc, List.singleton_append]

/-- A failure takes the place of the line that it cuts short. -/
theorem readLines_map_ok_append_error {line : List UInt8} (unbroken : lineFeed ∉ line)
    (bytes : List UInt8) {failure : DeviceFailure} (final : failure.kind ≠ .interrupted)
    (rest : List (Except DeviceFailure UInt8)) :
    readLines line (bytes.map .ok ++ .error failure :: rest) =
      (completeLines (line ++ bytes)).map readLine ++ [.error (.device failure)] := by
  induction bytes generalizing line with
  | nil =>
    rw [List.map_nil, List.nil_append, readLines, if_neg final, List.append_nil,
      completeLines_of_unbroken unbroken]
    rfl
  | cons byte bytes ih =>
    rw [List.map_cons, List.cons_append, readLines]
    split
    · next feed =>
      rw [feed, completeLines_append_lineFeed unbroken, List.map_cons, ih List.not_mem_nil]
      rfl
    · next other =>
      rw [ih (lineFeed_notMem_concat unbroken other), List.append_assoc, List.singleton_append]

theorem readLines_append_interrupted (line : List UInt8)
    (before after : List (Except DeviceFailure UInt8)) {failure : DeviceFailure}
    (again : failure.kind = .interrupted) :
    readLines line (before ++ .error failure :: after) = readLines line (before ++ after) := by
  induction before generalizing line with
  | nil => rw [List.nil_append, readLines, if_pos again, List.nil_append]
  | cons first before ih => cases first <;> simp only [List.cons_append, readLines, ih]

/-! ## Lines of a source that fails -/

variable {bytes : List UInt8} {position : Nat} {failure : DeviceFailure}

theorem Source.fault?_of_not (h : ¬ (failure.kind ≠ .interrupted ∧ position ≤ bytes.length)) :
    (⟨bytes, some ⟨position, failure⟩⟩ : Source).fault? = none := by
  simp only [Source.fault?, Option.filter_some, h, decide_false, Bool.false_eq_true, if_false]

theorem Source.fault?_of_inside (inside : position ≤ bytes.length)
    (final : failure.kind ≠ .interrupted) :
    (⟨bytes, some ⟨position, failure⟩⟩ : Source).fault? = some ⟨position, failure⟩ := by
  simp [Source.fault?, Option.filter_some, inside, final]

theorem Source.lines_of_not (h : ¬ (failure.kind ≠ .interrupted ∧ position ≤ bytes.length)) :
    (⟨bytes, some ⟨position, failure⟩⟩ : Source).lines = (⟨bytes, none⟩ : Source).lines := by
  unfold Source.lines
  rw [fault?_of_not h]
  rfl

theorem Source.lines_of_interrupted (again : failure.kind = .interrupted) :
    (⟨bytes, some ⟨position, failure⟩⟩ : Source).lines = (⟨bytes, none⟩ : Source).lines :=
  lines_of_not fun h => h.1 again

theorem Source.lines_of_fault (inside : position ≤ bytes.length)
    (final : failure.kind ≠ .interrupted) :
    (⟨bytes, some ⟨position, failure⟩⟩ : Source).lines =
      (completeLines (bytes.take position)).map readLine ++ [.error (.device failure)] := by
  unfold Source.lines
  rw [fault?_of_inside inside final]

/-- **The lines of a source are those read byte by byte.** -/
theorem Source.lines_eq_readLines (source : Source) :
    source.lines = readLines [] source.deliveries := by
  have whole (bytes : List UInt8) :
      (⟨bytes, none⟩ : Source).lines = readLines [] (bytes.map .ok) := by
    rw [readLines_map_ok List.not_mem_nil, List.nil_append]
    rfl
  obtain ⟨bytes, _ | ⟨position, failure⟩⟩ := source
  · exact whole bytes
  unfold deliveries
  by_cases inside : position ≤ bytes.length
  · simp only [if_pos inside]
    by_cases again : failure.kind = .interrupted
    · rw [lines_of_interrupted again, readLines_append_interrupted [] _ _ again,
        ← List.map_append, List.take_append_drop, whole]
    · rw [lines_of_fault inside again, readLines_map_ok_append_error List.not_mem_nil _ again,
        List.nil_append]
  · simp only [if_neg inside]
    rw [lines_of_not fun h => inside h.2, whole]

theorem take_lineBytes_eq (bytes : List UInt8) (position : Nat) :
    (lineBytes bytes).take ((bytes.take position).count lineFeed) =
      completeLines (bytes.take position) := by
  rw [← take_count_lineBytes (bytes.take position) (bytes.drop position), List.take_append_drop]

/-! ## Runs -/

variable {settings : Settings} {sink : Sink}

theorem analyze_congr {source other : Source} (h : source.lines = other.lines) :
    analyze settings source sink = analyze settings other sink := by
  rw [analyze, analyze, h]

theorem Blames.isUndefined_eq {delimiter : Char} {lines : List (List UInt8)} {number : Nat}
    {fault : Fault} (h : Blames delimiter lines number fault) :
    fault.isUndefined = false ∧ ∀ failure, fault ≠ .unwritable failure := by
  cases h with
  | notText => simp [Fault.isUndefined]
  | row _ _ _ _ verdict => cases verdict <;> simp [Fault.isUndefined]

theorem Stops.of_fault (settings : Settings) (sink : Sink) (inside : position ≤ bytes.length)
    (final : failure.kind ≠ .interrupted) : ∃ before bad fault,
      Stops settings ⟨bytes, some ⟨position, failure⟩⟩ sink before bad fault := by
  have mem : Except.error (.device failure) ∈
      (⟨bytes, some ⟨position, failure⟩⟩ : Source).lines := by
    rw [Source.lines_of_fault inside final]
    exact List.mem_append_right _ List.mem_cons_self
  cases course_analyze settings ⟨bytes, some ⟨position, failure⟩⟩ sink with
  | noLine lines run => simp [lines] at mem
  | noHeader lines run => exact ⟨_, _, _, .of_noHeader lines run⟩
  | ended lines rows ends run => exact ⟨_, _, _, .of_ended lines rows ends run⟩
  | report lines => simp [lines] at mem

theorem eq_or_eq_of_concat_eq {α : Type} {xs ys zs : List α} {x y : α}
    (h : xs ++ [x] = ys ++ y :: zs) : (∃ zs', xs = ys ++ y :: zs') ∨ xs = ys ∧ x = y := by
  rcases List.eq_nil_or_concat zs with rfl | ⟨zs', z, rfl⟩
  · obtain ⟨rfl, last⟩ := List.append_inj' h rfl
    exact Or.inr ⟨rfl, List.singleton_inj.1 last⟩
  · rw [List.concat_eq_append, ← List.cons_append, ← List.append_assoc] at h
    exact Or.inl ⟨zs', (List.append_inj' h rfl).1⟩

/-- The run stops at a line that ends before the failure, or at the failure, where no such line is
at fault. -/
theorem Stops.cases_of_fault {before : List String} {bad : Except ReadFailure String} {fault : Fault}
    (stops : Stops settings ⟨bytes, some ⟨position, failure⟩⟩ sink before bad fault)
    (inside : position ≤ bytes.length) (final : failure.kind ≠ .interrupted) :
    (before.length + 1 ≤ (bytes.take position).count lineFeed ∧
      ∃ rest, (lineBytes bytes).map readLine = before.map .ok ++ bad :: rest) ∨
    fault = .unreadable (.device failure) ∧ ∀ number ≤ (bytes.take position).count lineFeed,
      ¬ Offends (Char.ofUInt8 settings.delimiter) (lineBytes bytes) number := by
  set complete := (bytes.take position).count lineFeed with hc
  obtain ⟨rest, stopped⟩ := stops.lines
  rw [Source.lines_of_fault inside final, ← take_lineBytes_eq, ← hc] at stopped
  rcases eq_or_eq_of_concat_eq stopped with ⟨rest', first⟩ | ⟨all, rfl⟩
  · left
    constructor
    · have := congrArg List.length first
      simp only [List.length_map, List.length_take, List.length_append, List.length_cons] at this
      omega
    · refine ⟨rest' ++ ((lineBytes bytes).drop complete).map readLine, ?_⟩
      rw [← List.cons_append, ← List.append_assoc, ← first, ← List.map_append,
        List.take_append_drop]
  · right
    refine ⟨stops.unreadable _ rfl, fun number early offends => ?_⟩
    have texts := map_readLine_eq_map_ok_iff.1 all
    have length := congrArg List.length texts
    rw [List.length_take, List.length_map] at length
    have := offends.le_length
    rw [← List.take_append_drop complete (lineBytes bytes), texts] at offends
    exact stops.early _ number (by omega) offends

/-- **The first line at fault before a failure decides, or else the failure.** What lies behind the
failure does not matter. -/
theorem read_fault_ends_run (settings : Settings) {lines : List (List UInt8)}
    (layout : IsLines bytes lines) (inside : position ≤ bytes.length) (failure : DeviceFailure)
    (sink : Sink) :
    let run := analyze settings ⟨bytes, some ⟨position, failure⟩⟩ sink
    let whole := analyze settings ⟨bytes, none⟩ sink
    let complete := (bytes.take position).count lineFeed
    (failure.kind = .interrupted → run = whole) ∧
    (failure.kind ≠ .interrupted → run.sink = sink ∧
      (∃ fault, run.outcome = .error fault ∧ fault.isUndefined = false ∧
        (∀ failure', fault ≠ .unwritable failure') ∧
        (∀ number, IsLeast {n | Offends (Char.ofUInt8 settings.delimiter) lines n} number →
          number ≤ complete →
          Blames (Char.ofUInt8 settings.delimiter) lines number fault ∧ run = whole) ∧
        ((∀ number ≤ complete, ¬ Offends (Char.ofUInt8 settings.delimiter) lines number) →
          fault = .unreadable (.device failure))) ∧
      ∀ bytes', position ≤ bytes'.length → bytes'.take position = bytes.take position →
        analyze settings ⟨bytes', some ⟨position, failure⟩⟩ sink = run) := by
  intro run whole complete
  obtain rfl := isLines_iff.1 layout
  refine ⟨fun again => analyze_congr (Source.lines_of_interrupted again), fun final => ?_⟩
  obtain ⟨before, bad, fault, stops⟩ := Stops.of_fault settings sink inside final
  obtain ⟨events, same⟩ := stops.run
  obtain ⟨rest, stopped⟩ := stops.lines
  have run_eq : run = ⟨.error fault, sink, events⟩ := same _ rest stopped
  refine ⟨by rw [run_eq], ⟨fault, stops.outcome_eq, ?_⟩, fun bytes' inside' agree => ?_⟩
  · rcases stops.cases_of_fault inside final with ⟨early, rest', lines⟩ | ⟨rfl, none⟩
    · obtain ⟨least, blames⟩ := stops.blames lines
      refine ⟨blames.isUndefined_eq.1, blames.isUndefined_eq.2, fun number least' _ => ?_,
        fun none => absurd least.1 (none _ early)⟩
      obtain rfl := least.unique least'
      exact ⟨blames, run_eq.trans (same ⟨bytes, none⟩ rest' lines).symm⟩
    · exact ⟨rfl, by simp, fun number least early => absurd least.1 (none number early),
        fun _ => rfl⟩
  · apply analyze_congr
    rw [Source.lines_of_fault inside' final, Source.lines_of_fault inside final, agree]

theorem cut_line_is_not_looked_at :
    IsLines (encode "a\n1\nx\n") [encode "a", encode "1", encode "x"] ∧
    5 ≤ (encode "a\n1\nx\n").length ∧
    (analyze {} ⟨encode "a\n1\nx\n", some ⟨5, ⟨.other, "source failed"⟩⟩⟩ {}).outcome =
      .error (.unreadable (.device ⟨.other, "source failed"⟩)) ∧
    analyze {} ⟨encode "a\n1\n2\n3", some ⟨5, ⟨.interrupted, ""⟩⟩⟩ {} =
      analyze {} ⟨encode "a\n1\n2\n3", none⟩ {} := by
  have layout : IsLines (encode "a\n1\nx\n") [encode "a", encode "1", encode "x"] := by decide
  have inside : 5 ≤ (encode "a\n1\nx\n").length := by decide
  obtain ⟨row, reads⟩ := exists_readsAs_iff.2
    (by decide : ∀ field ∈ fields ',' "1", Numeral.IsNumeral field)
  have are : List.Forall₂ (Collector.IsRow ',' (fields ',' "a").length) ["1"] [row] :=
    .cons ⟨reads, reads.length_eq.symm⟩ .nil
  obtain ⟨-, ⟨fault, outcome, -, -, -, cut⟩, -⟩ :=
    (read_fault_ends_run {} layout inside ⟨.other, "source failed"⟩ {}).2 (by decide)
  have none : ∀ number ≤ ((encode "a\n1\nx\n").take 5).count lineFeed,
      ¬ Offends ',' [encode "a", encode "1", encode "x"] number := by
    intro number early
    exact not_offends_of_isRow are early
  obtain rfl := cut none
  exact ⟨layout, inside, outcome, (read_fault_ends_run {} (isLines_iff.2 rfl) (by decide) _ {}).1 rfl⟩

end ColumnStats
