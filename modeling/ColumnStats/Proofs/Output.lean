import ColumnStats.Proofs.Report
import ColumnStats.Proofs.Runs

/-!
# The output of an analysis

A run writes a line for every column of its table, or nothing at all. The source may fail anywhere;
the sink does not fail.

* `Ends.isUndefined_eq`: no line ends a run with undefined statistics, or with a failed write;
* `newline_notMem_of_mem_fields`: no field has a line feed, whatever the delimiter;
* `output_is_all_or_nothing`: **a fault leaves no output, success writes a line for every column**.
-/

namespace ColumnStats

open Text

/-! ## Faults and labels -/

theorem Ends.isUndefined_eq {delimiter : Char} {labels : List String} {number : Nat}
    {bad : Except ReadFailure String} {fault : Fault} (h : Ends delimiter labels number bad fault) :
    fault.isUndefined = false ∧ ∀ failure, fault ≠ .unwritable failure := by
  cases h with
  | unreadable => simp [Fault.isUndefined]
  | refused verdict => cases verdict <;> simp [Fault.isUndefined]

theorem newline_notMem_of_mem_fields {bytes : List UInt8} {header : String}
    (mem : encode header ∈ lineBytes bytes) {delimiter : Char} {field : List Char}
    (hf : field ∈ fields delimiter header) : '\n' ∉ field := by
  have unbroken := (isLines_lineBytes bytes).unbroken _ mem
  rw [lineFeed_mem_encode_iff] at unbroken
  exact fun h => unbroken (subset_of_mem_fields hf h)

theorem Table.Holds.newline_notMem {table : Table} {delimiter : Char} {header : String}
    {rows : List (List Binary64)} (h : table.Holds ((fields delimiter header).map String.ofList) rows)
    {bytes : List UInt8} (mem : encode header ∈ lineBytes bytes) :
    ∀ label ∈ table.labels, '\n' ∉ label.toList := by
  rw [h.labels_eq, List.forall_mem_map]
  intro field hf
  rw [String.toList_ofList]
  exact newline_notMem_of_mem_fields mem hf

/-! ## Output -/

/-- **A fault leaves no output, success writes a line for every column.** -/
theorem output_is_all_or_nothing (settings : Settings) (source : Source) {sink : Sink}
    (unfailing : sink.Unfailing) :
    let run := analyze settings source sink
    (∀ fault, run.outcome = .error fault → run.sink.received = sink.received ∧
      run.sink.flushes = sink.flushes + (if fault.isUndefined then 1 else 0) ∧
      ∀ failure, fault ≠ .unwritable failure) ∧
    (source.bytes = [] → run.sink = sink) ∧
    ∀ table, run.outcome = .ok table → source.bytes ≠ [] → ∃ header labels lines summaries,
      IsLines source.bytes (encode header :: lines) ∧
      IsRecord (Char.ofUInt8 settings.delimiter) header labels ∧
      table.labels = labels.map String.ofList ∧ table.Summarized settings.z summaries ∧
      summaries.length = labels.length ∧
      run.sink.received = sink.received ++
        summaries.flatMap (fun summary => encode summary.text ++ [lineFeed]) ∧
      (∀ summary ∈ summaries, lineFeed ∉ encode summary.text) ∧
      run.sink.flushes = sink.flushes + 1 := by
  intro run
  cases course_analyze settings source sink with
  | noLine lines e =>
    have run_eq : run = ⟨.ok .empty, sink, [.emptyInput]⟩ := e
    rw [run_eq]
    refine ⟨by simp, fun _ => rfl, fun table _ nonempty => absurd ?_ nonempty⟩
    have none := @Source.lineBytes_eq_of_lines_eq source [] lines
    exact (isLines_lineBytes source.bytes).eq_nil_iff.1 none
  | noHeader lines e =>
    have run_eq : run = ⟨.error (.unreadable _), sink, []⟩ := e source _ lines
    rw [run_eq]
    refine ⟨?_, fun _ => rfl, by simp⟩
    rintro _ ⟨⟩
    simp [Fault.isUndefined]
  | ended lines rows ends e =>
    obtain ⟨events, e⟩ := e
    have run_eq : run = ⟨.error _, sink, events⟩ := e source _ lines
    rw [run_eq]
    refine ⟨?_, fun _ => rfl, by simp⟩
    rintro _ ⟨⟩
    obtain ⟨defined, written⟩ := ends.isUndefined_eq
    exact ⟨rfl, by rw [defined]; rfl, written⟩
  | @report header texts rows table lines are holds outcome written =>
    have bytes_eq := Source.lineBytes_eq_of_lines_eq lines
    have nonempty : source.bytes ≠ [] := by
      intro empty
      rw [empty] at bytes_eq
      simp at bytes_eq
    have outcome' : run.outcome = _ := outcome
    have written' : run.sink = _ := written
    rw [outcome', written']
    rcases holds.report_cases unfailing settings.z with
      ⟨-, label, labels, -, fault, received, flushes⟩ |
      ⟨-, summaries, summarized, fault, received, flushes⟩
    · rw [fault]
      refine ⟨?_, fun empty => absurd empty nonempty, by simp⟩
      rintro _ ⟨⟩
      exact ⟨received, flushes, by simp⟩
    · rw [fault]
      refine ⟨by simp, fun empty => absurd empty nonempty, ?_⟩
      rintro _ ⟨⟩ -
      have layout := isLines_lineBytes source.bytes
      rw [bytes_eq] at layout
      have mem : encode header ∈ lineBytes source.bytes := by
        rw [bytes_eq]
        exact List.mem_cons_self
      refine ⟨header, fields _ header, texts.map encode, summaries, layout, isRecord_iff.2 rfl,
        holds.labels_eq, summarized, ?_, ?_, summarized.unbroken (holds.newline_notMem mem), flushes⟩
      · rw [← List.Forall₂.length_eq summarized]
        exact holds.width_eq.trans (List.length_map _)
      · rw [received, Summary.flatMap_line]

/-- Two columns are written as a whole, and nothing where the source fails or a row is missing. -/
theorem two_columns_are_written_or_none :
    let bytes := encode "a;b\n1;2\n3;5\n"
    let failure : DeviceFailure := ⟨.other, "source failed"⟩
    let whole := analyze { delimiter := 59 } ⟨bytes, none⟩ {}
    let cut := analyze { delimiter := 59 } ⟨bytes, some ⟨10, failure⟩⟩ {}
    let short := analyze { delimiter := 59 } ⟨bytes.take 8, none⟩ {}
    ({} : Sink).Unfailing ∧
    (whole.outcome = .ok ⟨[⟨"a", #[.ofNat 1, .ofNat 3]⟩, ⟨"b", #[.ofNat 2, .ofNat 5]⟩], 2⟩ ∧
      ∃ first second : Summary, first.label = "a" ∧ second.label = "b" ∧
        whole.sink.received = encode first.text ++ lineFeed :: (encode second.text ++ [lineFeed]) ∧
        whole.sink.flushes = 1) ∧
    (cut.outcome = .error (.unreadable (.device failure)) ∧ cut.sink.received = [] ∧
      cut.sink.flushes = 0) ∧
    short.outcome = .error (.tooFew "a" 1) ∧ short.sink.received = [] ∧ short.sink.flushes = 1 := by
  intro bytes failure whole cut short
  have unfailing : ({} : Sink).Unfailing := ⟨rfl, rfl⟩
  have accepted : whole.outcome =
      .ok ⟨[⟨"a", #[.ofNat 1, .ofNat 3]⟩, ⟨"b", #[.ofNat 2, .ofNat 5]⟩], 2⟩ := by decide +kernel
  have unread : cut.outcome = .error (.unreadable (.device failure)) := by decide +kernel
  have undefined : short.outcome = .error (.tooFew "a" 1) := by decide +kernel
  obtain ⟨-, -, written⟩ := output_is_all_or_nothing { delimiter := 59 } ⟨bytes, none⟩ unfailing
  obtain ⟨silent, -⟩ :=
    output_is_all_or_nothing { delimiter := 59 } ⟨bytes, some ⟨10, failure⟩⟩ unfailing
  obtain ⟨silent', -⟩ := output_is_all_or_nothing { delimiter := 59 } ⟨bytes.take 8, none⟩ unfailing
  obtain ⟨received, flushes, -⟩ := silent _ unread
  obtain ⟨received', flushes', -⟩ := silent' _ undefined
  obtain ⟨header, labels, lines, summaries, -, -, -, summarized, -, lines', -, flushes''⟩ :=
    written _ accepted (by decide)
  obtain ⟨first, rest, rfl, label, others⟩ := List.map_eq_cons_iff.1 summarized.map_label
  obtain ⟨second, rfl, label'⟩ := List.map_eq_singleton_iff.1 others
  refine ⟨unfailing, ⟨accepted, first, second, label, label', ?_, flushes''⟩,
    ⟨unread, received, flushes⟩, undefined, received', flushes'⟩
  have text : whole.sink.received = _ := lines'
  rw [text]
  simp [Sink.received]

end ColumnStats
