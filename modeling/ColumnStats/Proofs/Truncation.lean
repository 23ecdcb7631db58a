import ColumnStats.Proofs.Report
import ColumnStats.Settings

/-!
# Reports into a sink that fails

A sink without a buffer passes every write on at once. Its device takes bytes as long as it has
room, and a flush may fail as well.

* `Sink.Direct`: such a sink; `Sink.after`: the sink once it has taken some bytes;
* `Sink.Direct.write_append`: **in how many writes bytes arrive does not matter**;
* `Sink.Direct.calls_iff`: nor does it matter how many of them the device takes at a time;
* `Report.ending_ofColumns`: a report is one write of all its lines, then a flush;
* `failing_sink_truncates`: **a failing sink gets the beginning of the report, and its failure comes
  before that of a column**.
-/

namespace ColumnStats

open Text

/-! ## Sinks without a buffer -/

namespace Sink

/-- Nothing is held back, and a failed write is not tried again. -/
structure Direct (sink : Sink) : Prop where
  capacity : sink.capacity = 0
  held : sink.held = []
  final : sink.writeFailure.kind ≠ .interrupted

/-- There is room for all of the bytes. -/
def Fits (sink : Sink) (bytes : List UInt8) : Prop := ∀ room ∈ sink.room, bytes.length ≤ room

/-- The bytes that there is room for. -/
def fitting (sink : Sink) (bytes : List UInt8) : List UInt8 :=
  match sink.room with
  | none => bytes
  | some room => bytes.take room

/-- The sink once its device has taken the bytes. -/
def after (sink : Sink) (bytes : List UInt8) : Sink :=
  { sink with taken := sink.taken ++ bytes, room := sink.room.map (· - bytes.length) }

variable {sink : Sink} {bytes bytes' : List UInt8}

theorem fitting_of_fits (h : sink.Fits bytes) : sink.fitting bytes = bytes := by
  unfold fitting
  split
  · rfl
  · next room hr => exact List.take_of_length_le (h room hr)

theorem not_fits_iff : ¬ sink.Fits bytes ↔ ∃ room, sink.room = some room ∧ room < bytes.length := by
  unfold Fits
  cases sink.room <;> simp

@[simp] theorem after_nil (sink : Sink) : sink.after [] = sink := by
  simp [after]

theorem after_after (sink : Sink) (bytes bytes' : List UInt8) :
    (sink.after bytes).after bytes' = sink.after (bytes ++ bytes') := by
  simp [after, Function.comp_def, Nat.sub_sub]

theorem Direct.after (h : sink.Direct) (bytes : List UInt8) : (sink.after bytes).Direct :=
  ⟨h.capacity, h.held, h.final⟩

theorem fits_append_iff (h : sink.Fits bytes) :
    sink.Fits (bytes ++ bytes') ↔ (sink.after bytes).Fits bytes' := by
  unfold Fits at *
  cases hr : sink.room with
  | none => simp [after, hr]
  | some room =>
    have := h room (by simp [hr])
    simp only [after, hr, Option.map_some, Option.mem_def, Option.some.injEq, forall_eq',
      List.length_append]
    omega

theorem fitting_append (h : sink.Fits bytes) :
    sink.fitting (bytes ++ bytes') = bytes ++ (sink.after bytes).fitting bytes' := by
  unfold fitting
  cases hr : sink.room with
  | none => simp [after, hr]
  | some room =>
    have := h room hr
    simp [after, hr, List.take_append, List.take_of_length_le this]

theorem fitting_append_of_not_fits (h : ¬ sink.Fits bytes) :
    sink.fitting (bytes ++ bytes') = sink.fitting bytes := by
  obtain ⟨room, hr, short⟩ := not_fits_iff.1 h
  simp only [fitting, hr]
  exact List.take_append_of_le_length (by omega)

theorem not_fits_append (h : ¬ sink.Fits bytes) : ¬ sink.Fits (bytes ++ bytes') := by
  obtain ⟨room, hr, short⟩ := not_fits_iff.1 h
  exact not_fits_iff.2 ⟨room, hr, by rw [List.length_append]; omega⟩

theorem Direct.pass_nil (h : sink.Direct) : sink.pass [] = (sink, none) := by
  have same : { sink with held := [] } = sink := by rw [← h.held]
  unfold pass
  cases hr : sink.room <;> simp [← hr, same]

theorem Direct.write_eq_pass (h : sink.Direct) (bytes : List UInt8) :
    sink.write bytes = sink.pass bytes := by
  by_cases empty : bytes = []
  · have fits : (sink.held ++ bytes).length ≤ sink.capacity := by simp [h.held, empty]
    refine (if_pos fits).trans ?_
    rw [empty, List.append_nil, h.pass_nil]
  · have exceeds : ¬ (sink.held ++ bytes).length ≤ sink.capacity := by simp [h.held, h.capacity, empty]
    refine (if_neg exceeds).trans ?_
    rw [h.held, List.nil_append]

theorem Direct.write_of_fits (h : sink.Direct) (fits : sink.Fits bytes) :
    sink.write bytes = (sink.after bytes, none) := by
  rw [h.write_eq_pass]
  unfold pass
  split
  · next hr => simp [Sink.after, hr, h.held]
  · next room hr =>
    have := fits room hr
    simp [Sink.after, hr, h.held, this, List.take_of_length_le this]

theorem Direct.write_of_not_fits (h : sink.Direct) (short : ¬ sink.Fits bytes) :
    sink.write bytes = (sink.after (sink.fitting bytes), some sink.writeFailure) := by
  obtain ⟨room, hr, short⟩ := not_fits_iff.1 short
  have : room - bytes.length = 0 := by omega
  rw [h.write_eq_pass]
  simp [pass, Sink.after, fitting, hr, h.held, short, this, Nat.min_eq_left (Nat.le_of_lt short)]

/-- **In how many writes bytes arrive does not matter.** -/
theorem Direct.write_append (h : sink.Direct) (bytes bytes' : List UInt8) :
    sink.write (bytes ++ bytes') =
      match sink.write bytes with
      | (written, some failure) => (written, some failure)
      | (written, none) => written.write bytes' := by
  by_cases fits : sink.Fits bytes
  · rw [h.write_of_fits fits]
    dsimp only
    by_cases fits' : (sink.after bytes).Fits bytes'
    · rw [(h.after bytes).write_of_fits fits', after_after,
        h.write_of_fits ((fits_append_iff fits).2 fits')]
    · rw [(h.after bytes).write_of_not_fits fits', after_after, ← fitting_append fits,
        h.write_of_not_fits (mt (fits_append_iff fits).1 fits')]
      rfl
  · rw [h.write_of_not_fits fits, h.write_of_not_fits (not_fits_append fits),
      fitting_append_of_not_fits fits]

/-! ## Calls of a device -/

/-- Bytes are offered to a device again and again, until it has taken all of them. A call takes some
of them, as many as the device likes; it fails when there is no room at all. -/
inductive Calls : Sink → List UInt8 → Sink → Option DeviceFailure → Prop
  | done (sink : Sink) : Calls sink [] sink none
  | part {sink last : Sink} {bytes rest : List UInt8} {failure? : Option DeviceFailure}
    (nonempty : bytes ≠ []) (fits : sink.Fits bytes)
    (calls : Calls (sink.after bytes) rest last failure?) : Calls sink (bytes ++ rest) last failure?
  | full {sink : Sink} {bytes : List UInt8} (nonempty : bytes ≠ []) (full : sink.room = some 0) :
    Calls sink bytes sink (some sink.writeFailure)

theorem Calls.write_eq {last : Sink} {failure? : Option DeviceFailure}
    (calls : Calls sink bytes last failure?) (h : sink.Direct) :
    sink.write bytes = (last, failure?) := by
  induction calls with
  | done sink => rw [h.write_eq_pass, h.pass_nil]
  | part _ fits _ ih =>
    rw [h.write_append, h.write_of_fits fits]
    exact ih (h.after _)
  | @full sink bytes nonempty full =>
    have short : ¬ sink.Fits bytes :=
      not_fits_iff.2 ⟨0, full, List.length_pos_iff.2 nonempty⟩
    have none : sink.fitting bytes = [] := by
      unfold fitting
      rw [full]
      rfl
    rw [h.write_of_not_fits short, none, after_nil]

theorem calls_fitting (sink : Sink) {last : Sink} {rest : List UInt8}
    {failure? : Option DeviceFailure} (fits : sink.Fits bytes)
    (calls : Calls (sink.after bytes) rest last failure?) :
    Calls sink (bytes ++ rest) last failure? := by
  by_cases empty : bytes = []
  · rw [empty, after_nil] at calls
    rwa [empty, List.nil_append]
  · exact .part empty fits calls

/-- Writing is calling the device, **however many bytes it takes at a time**. -/
theorem Direct.calls_iff (h : sink.Direct) {last : Sink} {failure? : Option DeviceFailure} :
    Calls sink bytes last failure? ↔ sink.write bytes = (last, failure?) := by
  refine ⟨fun calls => calls.write_eq h, fun written => ?_⟩
  by_cases fits : sink.Fits bytes
  · rw [h.write_of_fits fits] at written
    obtain ⟨rfl, rfl⟩ := Prod.mk.inj written
    have calls := calls_fitting sink fits (.done _)
    rwa [List.append_nil] at calls
  · obtain ⟨room, hr, short⟩ := not_fits_iff.1 fits
    rw [h.write_of_not_fits fits, fitting, hr] at written
    obtain ⟨rfl, rfl⟩ := Prod.mk.inj written
    have rest : bytes.drop room ≠ [] := by
      rw [ne_eq, List.drop_eq_nil_iff]
      omega
    have full : (sink.after (bytes.take room)).room = some 0 := by
      simp [Sink.after, hr, Nat.min_eq_left (Nat.le_of_lt short)]
    have fits' : sink.Fits (bytes.take room) := by
      intro room' hr'
      rw [hr, Option.mem_def, Option.some_inj] at hr'
      rw [List.length_take]
      omega
    have calls := calls_fitting sink fits' (.full rest full)
    rwa [List.take_append_drop] at calls

end Sink

/-! ## Reports -/

/-- There are too few values for a summary, or no rows. -/
def Column.IsDegenerate (column : Column) (rows : Nat) : Prop := column.values.size < 2 ∨ rows = 0

theorem Column.isDegenerate_iff {column : Column} {rows : Nat} {z : Binary64} :
    column.IsDegenerate rows ↔
      column.summary rows z = .error (.tooFew column.label column.values.size) := by
  rw [Column.summary_eq_error_iff, and_iff_left rfl]
  rfl

namespace Report

/-- How a report ended, without the events on the way. -/
def ending (report : Report) : Option Fault × Sink := (report.fault, report.sink)

variable {rows : Nat} {z : Binary64} {sink : Sink}

/-- Closing flushes once; a failure of the flush goes before the fault. -/
theorem ending_close (h : sink.Direct) (fault : Option Fault) : (close fault sink).ending =
    ((sink.flushFailure.map Fault.unwritable).or fault, { sink with flushes := sink.flushes + 1 }) := by
  have flushed : sink.flush = ({ sink with flushes := sink.flushes + 1 }, sink.flushFailure) := by
    simp only [Sink.flush, h.held, h.pass_nil]
  rw [close, flushed]
  cases sink.flushFailure <;> rfl

theorem exists_summaries (rows : Nat) (z : Binary64) (columns : List Column) :
    ∃ before after summaries, columns = before ++ after ∧
      (∀ column ∈ before, ¬ column.IsDegenerate rows) ∧
      (∀ column ∈ after.head?, column.IsDegenerate rows) ∧
      List.Forall₂ (fun column summary => column.summary rows z = .ok summary) before summaries := by
  induction columns with
  | nil => exact ⟨[], [], [], rfl, by simp, by simp, .nil⟩
  | cons column columns ih =>
    by_cases degenerate : column.IsDegenerate rows
    · exact ⟨[], column :: columns, [], rfl, by simp, by simpa using degenerate, .nil⟩
    · obtain ⟨before, after, summaries, rfl, regular, stop, are⟩ := ih
      cases hc : column.summary rows z with
      | error fault => exact absurd (Column.summary_eq_error_iff.1 hc).1 degenerate
      | ok summary =>
        exact ⟨column :: before, after, summary :: summaries, rfl,
          List.forall_mem_cons.2 ⟨degenerate, regular⟩, stop, .cons hc are⟩

/-- **A report is one write of all its lines**, up to the first degenerate column, then a flush. -/
theorem ending_ofColumns {before after : List Column} {summaries : List Summary}
    (stop : ∀ column ∈ after.head?, column.IsDegenerate rows)
    (are : List.Forall₂ (fun column summary => column.summary rows z = .ok summary) before summaries)
    (h : sink.Direct) : (ofColumns rows z (before ++ after) sink).ending =
      match sink.write (summaries.flatMap Summary.line) with
      | (written, some failure) => (some (.unwritable failure), written)
      | (written, none) => (close
          (after.head?.map fun column => .tooFew column.label column.values.size) written).ending := by
  induction are generalizing sink with
  | nil =>
    rw [List.flatMap_nil, h.write_eq_pass, h.pass_nil, List.nil_append]
    cases after with
    | nil => rfl
    | cons column after =>
      rw [ofColumns, Column.isDegenerate_iff.1 (stop column rfl)]
      rfl
  | @cons column summary before summaries first _ ih =>
    rw [List.flatMap_cons, h.write_append, List.cons_append, ofColumns, first]
    by_cases fits : sink.Fits summary.line
    · simp only [h.write_of_fits fits]
      exact ih (h.after summary.line)
    · simp only [h.write_of_not_fits fits]
      rfl

end Report

/-- **A failing sink gets the beginning of the report.** A degenerate column is named only if all
lines before it were delivered. -/
theorem failing_sink_truncates (table : Table) (z : Binary64) {sink : Sink} (direct : sink.Direct) :
    ∃ before after summaries, table.columns = before ++ after ∧
      (∀ column ∈ before, ¬ column.IsDegenerate table.rowCount) ∧
      (∀ column ∈ after.head?, column.IsDegenerate table.rowCount) ∧
      List.Forall₂ (fun column summary => column.summary table.rowCount z = .ok summary)
        before summaries ∧
      let lines := summaries.flatMap fun summary => encode summary.text ++ [lineFeed]
      let report := table.report z sink
      report.sink.taken = sink.taken ++ sink.fitting lines ∧
      (¬ sink.Fits lines → report.fault = some (.unwritable sink.writeFailure) ∧
        report.sink.flushes = sink.flushes) ∧
      (sink.Fits lines → report.sink.flushes = sink.flushes + 1 ∧
        report.fault = match sink.flushFailure with
          | some failure => some (.unwritable failure)
          | none => after.head?.map fun column => .tooFew column.label column.values.size) ∧
      ∀ label values, report.fault = some (.tooFew label values) →
        report.sink.taken = sink.taken ++ lines := by
  obtain ⟨before, after, summaries, split, regular, stop, are⟩ :=
    Report.exists_summaries table.rowCount z table.columns
  refine ⟨before, after, summaries, split, regular, stop, are, ?_⟩
  intro lines report
  have ending := Report.ending_ofColumns stop are direct
  rw [← split, Summary.flatMap_line] at ending
  change report.ending = _ at ending
  by_cases fits : sink.Fits lines
  · rw [direct.write_of_fits fits] at ending
    dsimp only at ending
    rw [Report.ending_close (direct.after lines)] at ending
    obtain ⟨fault, written⟩ := Prod.mk.inj ending
    have taken : report.sink.taken = sink.taken ++ lines := by rw [written]; rfl
    refine ⟨by rw [taken, Sink.fitting_of_fits fits], fun short => absurd fits short, fun _ => ?_,
      fun _ _ _ => taken⟩
    refine ⟨by rw [written]; rfl, ?_⟩
    rw [fault, Sink.after]
    cases sink.flushFailure <;> rfl
  · rw [direct.write_of_not_fits fits] at ending
    obtain ⟨fault, written⟩ := Prod.mk.inj ending
    refine ⟨by rw [written]; rfl, fun _ => ⟨fault, by rw [written]; rfl⟩,
      fun fits' => absurd fits' fits, ?_⟩
    intro label values named
    rw [fault] at named
    cases named

theorem first_character_is_cut : ({ room := some 1 } : Sink).Direct ∧
    ((⟨[⟨"é", #[.ofNat 1, .ofNat 3]⟩, ⟨"b", #[]⟩], 2⟩ : Table).report factor95
      { room := some 1 }).fault = some (.unwritable ⟨.other, ""⟩) ∧
    ((⟨[⟨"é", #[.ofNat 1, .ofNat 3]⟩, ⟨"b", #[]⟩], 2⟩ : Table).report factor95
      { room := some 1 }).sink.taken = [0xc3] := by
  have direct : ({ room := some 1 } : Sink).Direct := ⟨rfl, rfl, by decide⟩
  obtain ⟨before, after, summaries, split, -, stop, are, taken, short, -⟩ := failing_sink_truncates
    ⟨[⟨"é", #[.ofNat 1, .ofNat 3]⟩, ⟨"b", #[]⟩], 2⟩ factor95 direct
  cases are with
  | nil =>
    subst split
    exact absurd (stop _ rfl) (by simp [Column.IsDegenerate])
  | @cons column summary before summaries own _ =>
    obtain ⟨rfl, -⟩ := List.cons.inj split
    have label : summary.label = "é" := Column.label_of_summary_eq own
    have first : String.utf8EncodeChar 'é' = [0xc3, 0xa9] := by decide
    have line : encode summary.text = 0xc3 :: 0xa9 :: encodeChars (" ".toList ++
        (summary.mean.fixed Summary.places ++
          (" ".toList ++ summary.halfWidth.fixed Summary.places))) := by
      simp [encode_eq, Summary.text, label, first]
    simp only [List.flatMap_cons, line, List.cons_append] at taken short
    exact ⟨direct, (short (Sink.not_fits_iff.2 ⟨1, rfl, by simp⟩)).1, taken⟩

end ColumnStats
