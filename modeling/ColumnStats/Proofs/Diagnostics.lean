import ColumnStats.Main
import ColumnStats.Proofs.Wording

/-!
# Diagnostics of the analyzing command

A fault is one line on standard error. It does not steer a terminal, so that less may be shown of it
than was said; where it leaves a terminal sequence open, even its line feed is not shown.

* `Sink.Blocked`: a device that takes nothing; `Sink.Idle`: nothing is held back;
* `Report.fault_ofColumns_blocked`: **a report to a device without room ends with its failure**;
* `analysis_cases`: what becomes of an input, whatever the sink;
* `Command.IsPrinted`: what is printed of a diagnostic;
* `Command.diagnostic_is_one_shown_line`: **a fault is one diagnostic, whatever stands behind the
  standard output**; an output that cannot be written has a diagnostic of its own.
-/

namespace ColumnStats

open Text

/-! ## Sinks of a command -/

namespace Sink

/-- The device takes nothing; a flush of nothing does not fail. -/
structure Blocked (sink : Sink) : Prop where
  room : sink.room = some 0
  flushFailure : sink.flushFailure = none

variable {sink : Sink}

theorem Blocked.pass (h : sink.Blocked) {bytes : List UInt8} (nonempty : bytes ≠ []) :
    (sink.pass bytes).2 = some sink.writeFailure := by
  have short : ¬ bytes.length ≤ 0 := by
    rw [Nat.le_zero, List.length_eq_zero_iff]
    exact nonempty
  simp only [Sink.pass, h.room, if_neg short]

theorem Blocked.write (h : sink.Blocked) {bytes : List UInt8} (nonempty : bytes ≠ []) :
    (∃ written, sink.write bytes = (written, none) ∧ written.Blocked ∧ written.held ≠ [] ∧
      written.writeFailure = sink.writeFailure) ∨
    ∃ written, sink.write bytes = (written, some sink.writeFailure) := by
  have waiting : sink.held ++ bytes ≠ [] := fun e => nonempty (List.append_eq_nil_iff.1 e).2
  by_cases fits : (sink.held ++ bytes).length ≤ sink.capacity
  · exact Or.inl ⟨_, if_pos fits, ⟨h.room, h.flushFailure⟩, waiting, rfl⟩
  · refine Or.inr ⟨(sink.pass (sink.held ++ bytes)).1, (if_neg fits).trans ?_⟩
    rw [← h.pass waiting]

theorem Blocked.flush (h : sink.Blocked) (waiting : sink.held ≠ []) :
    (sink.flush).2 = some sink.writeFailure := by
  have failed := h.pass waiting
  rw [Sink.flush]
  cases e : sink.pass sink.held with
  | mk passed failure? =>
    obtain rfl : failure? = some sink.writeFailure := by rw [← failed, e]
    rfl

/-- Nothing is held back, and flushing does not fail. -/
structure Idle (sink : Sink) : Prop where
  held : sink.held = []
  flushFailure : sink.flushFailure = none

theorem Idle.flush (h : sink.Idle) : (sink.flush).2 = none := by
  rw [Sink.flush, h.held, Sink.pass]
  cases sink.room <;> exact h.flushFailure

theorem Unfailing.held_flush (h : sink.Unfailing) : (sink.flush).1.held = [] := by
  rw [h.flush_eq]

end Sink

namespace Report

variable {rows : Nat} {z : Binary64}

theorem fault_close_of_failed {sink : Sink} {failure : DeviceFailure}
    (h : (sink.flush).2 = some failure) (fault : Option Fault) :
    (close fault sink).fault = some (.unwritable failure) := by
  rw [close]
  cases e : sink.flush with
  | mk flushed failure? =>
    obtain rfl : failure? = some failure := by rw [← h, e]
    rfl

theorem fault_close_of_idle {sink : Sink} (h : sink.Idle) (fault : Option Fault) :
    (close fault sink).fault = fault := by
  have flushed := h.flush
  rw [close]
  cases e : sink.flush with
  | mk flushed' failure? =>
    obtain rfl : failure? = none := by rw [← flushed, e]
    rfl

theorem held_ofColumns {sink : Sink} (h : sink.Unfailing) (columns : List Column) :
    (ofColumns rows z columns sink).sink.held = [] := by
  have held_close {sink : Sink} (h : sink.Unfailing) (fault : Option Fault) :
      (close fault sink).sink.held = [] := by
    obtain ⟨flushed, e, -⟩ := h.flush
    have held := h.held_flush
    rw [e] at held
    rwa [close, e]
  induction columns generalizing sink with
  | nil => exact held_close h none
  | cons column columns ih =>
    rw [ofColumns]
    cases column.summary rows z with
    | error fault => exact held_close h (some fault)
    | ok summary =>
      obtain ⟨written, e, unfailing, -⟩ := h.write summary.line
      simp only [e]
      exact ih unfailing

/-- **A report to a device without room ends with its failure**, at a write or at the last flush. -/
theorem fault_ofColumns_blocked {sink : Sink} (h : sink.Blocked) {columns : List Column}
    (are : ∀ column ∈ columns, ∃ summary, column.summary rows z = .ok summary)
    (waiting : columns ≠ [] ∨ sink.held ≠ []) :
    (ofColumns rows z columns sink).fault = some (.unwritable sink.writeFailure) := by
  induction columns generalizing sink with
  | nil =>
    have waiting := waiting.resolve_left (fun h => h rfl)
    exact fault_close_of_failed (h.flush waiting) none
  | cons column columns ih =>
    obtain ⟨⟨summary, first⟩, rest⟩ := List.forall_mem_cons.1 are
    have nonempty : summary.line ≠ [] := by simp [Summary.line_eq]
    rw [ofColumns, first]
    rcases h.write nonempty with ⟨written, e, blocked, held, same⟩ | ⟨written, e⟩
    · simp only [e]
      rw [ih blocked rest (Or.inr held), same]
    · simp only [e]

end Report

section Tables

variable {table : Table} {delimiter : Char} {header : String} {rows : List (List Binary64)}

theorem Table.Holds.columns_ne_nil
    (h : table.Holds ((fields delimiter header).map String.ofList) rows) : table.columns ≠ [] := by
  intro empty
  have width := h.width_eq
  rw [Table.width, empty, List.length_map] at width
  exact fields_ne_nil delimiter header (List.length_eq_zero_iff.1 width.symm)

theorem Table.Holds.fault_of_blocked
    (h : table.Holds ((fields delimiter header).map String.ofList) rows) (enough : 2 ≤ rows.length)
    {sink : Sink} (blocked : sink.Blocked) (z : Binary64) :
    (table.report z sink).fault = some (.unwritable sink.writeFailure) := by
  refine Report.fault_ofColumns_blocked blocked (fun column mem => ?_) (Or.inl h.columns_ne_nil)
  cases hc : column.summary table.rowCount z with
  | ok summary => exact ⟨summary, rfl⟩
  | error fault =>
    have few := (Column.summary_eq_error_iff.1 hc).1
    rw [h.size_eq column mem, h.rowCount_eq] at few
    omega

end Tables

/-- **What becomes of an input, whatever the sink.** No input is reported on, a fault ends the run
before anything is written, or a table is reported on; then a device without room fails. -/
theorem analysis_cases (settings : Settings) (bytes : List UInt8) :
    (bytes = [] ∧
      ∀ sink, analyze settings ⟨bytes, none⟩ sink = ⟨.ok .empty, sink, [.emptyInput]⟩) ∨
    (bytes ≠ [] ∧ ∃ fault,
      (∀ sink, sink.Idle → (analyze settings ⟨bytes, none⟩ sink).outcome = .error fault) ∧
      ∀ sink, sink.Unfailing →
        (analyze settings ⟨bytes, none⟩ sink).sink.received = sink.received) ∨
    (bytes ≠ [] ∧ ∃ table out,
      (∀ sink, sink.Unfailing → (analyze settings ⟨bytes, none⟩ sink).outcome = .ok table ∧
        (analyze settings ⟨bytes, none⟩ sink).sink.taken = sink.received ++ out) ∧
      ∀ sink, sink.Blocked →
        (analyze settings ⟨bytes, none⟩ sink).outcome =
          .error (.unwritable sink.writeFailure)) := by
  rcases analyze_of_any_sink settings ⟨bytes, none⟩ with ⟨lines, run⟩ | ⟨fault, events, run⟩ |
    ⟨header, texts, rows, table, lines, -, holds, run⟩
  · exact Or.inl ⟨(isLines_lineBytes bytes).eq_nil_iff.1 (List.map_eq_nil_iff.1 lines), run⟩
  · refine Or.inr (Or.inl ⟨?_, fault, fun sink _ => by rw [run], fun sink _ => by rw [run]⟩)
    rintro rfl
    cases run {}
  have nonempty : bytes ≠ [] := by
    rintro rfl
    cases lines
  rcases Nat.lt_or_ge rows.length 2 with few | enough
  · obtain ⟨label, labels, split⟩ :=
      List.exists_cons_of_ne_nil (fields_ne_nil (Char.ofUInt8 settings.delimiter) header)
    rw [split, List.map_cons] at holds
    refine Or.inr (Or.inl ⟨nonempty, .tooFew (String.ofList label) rows.length, ?_, ?_⟩)
    · intro sink idle
      rw [(run sink).1, holds.report_eq_close few, Report.fault_close_of_idle idle]
    · intro sink unfailing
      rw [(run sink).2, (holds.report_of_lt_two few unfailing settings.z).2.1]
  · obtain ⟨summaries, summarized, -⟩ :=
      @Table.Holds.report_of_two_le _ _ _ holds enough {} ⟨rfl, rfl⟩ settings.z
    refine Or.inr (Or.inr ⟨nonempty, table, summaries.flatMap Summary.line, ?_, ?_⟩)
    · intro sink unfailing
      obtain ⟨summaries', summarized', fault, received, -⟩ :=
        holds.report_of_two_le enough unfailing settings.z
      obtain rfl := summarized'.unique summarized
      have held : (table.report settings.z sink).sink.held = [] :=
        Report.held_ofColumns unfailing table.columns
      rw [Sink.received, held, List.append_nil] at received
      rw [(run sink).1, (run sink).2, fault]
      exact ⟨rfl, received⟩
    · intro sink blocked
      rw [(run sink).1, holds.fault_of_blocked enough blocked settings.z]

/-! ## The command -/

namespace Command

/-- What the command says about a fault: its message, and its cause if it has one. -/
def diagnostic (fault : Fault) : String :=
  "[ERROR reducedata] reducing stdin: " ++ fault.message ++
    match fault.cause? with
    | some cause => ": " ++ cause
    | none => ""

/-- What is printed of a diagnostic: all that does not steer a terminal. Its line feed is at the end
if it is printed, which it is unless the diagnostic leaves a command or a string open. A diagnostic
without control characters is printed as it is. -/
structure IsPrinted (diagnostic printed : String) : Prop where
  plain : printed = Terminal.plain (diagnostic ++ "\n")
  feed : ∃ text, printed = text ++ (if Terminal.leavesOpen diagnostic then "" else "\n") ∧
    Every (· ≠ '\n') text
  verbatim : Every (fun c => Terminal.isShown c) diagnostic → printed = diagnostic ++ "\n"

theorem diagnostic_eq (fault : Fault) :
    diagnostic fault = "[ERROR reducedata] reducing stdin: " ++ fault.description := by
  unfold diagnostic Fault.description
  generalize fault.message = message
  cases fault.cause? with
  | none => exact String.append_empty
  | some cause => simp only [String.append_assoc]

theorem line_faultRecord (fault : Fault) : (faultRecord fault).line = diagnostic fault ++ "\n" := by
  have name : "[" ++ Level.error.name.pushn ' ' (5 - Level.error.name.length) ++ " " =
      "[ERROR " := by decide
  have lead : "[ERROR reducedata] reducing stdin: " =
      "[ERROR " ++ "reducedata" ++ "] " ++ "reducing stdin: " := by decide
  rw [diagnostic_eq, lead, Record.line, faultRecord]
  generalize fault.description = description
  simp only [name, analyzeTarget, String.append_assoc]

theorem every_diagnostic {p : Char → Prop} (ascii : ∀ c, IsAscii c → p c) {fault : Fault}
    (quoted : ∀ text ∈ fault.quoted, Every p text) : Every p (diagnostic fault) := by
  have lead : Every IsAscii "[ERROR reducedata] reducing stdin: " := by decide
  rw [diagnostic_eq, every_append]
  exact ⟨fun c hc => ascii c (lead c hc), Fault.every_description ascii quoted⟩

theorem isPrinted_plain {fault : Fault} (quoted : ∀ text ∈ fault.quoted, Every (· ≠ '\n') text) :
    IsPrinted (diagnostic fault) (Terminal.plain (diagnostic fault ++ "\n")) where
  plain := rfl
  feed := by
    have ascii : ∀ c, IsAscii c → c ≠ '\n' := by
      rintro c printable rfl
      exact absurd printable (by decide)
    refine ⟨Terminal.plain (diagnostic fault), Terminal.plain_append_newline _, fun c hc => ?_⟩
    rw [Terminal.plain, String.toList_ofList] at hc
    exact every_diagnostic ascii quoted c (Terminal.shown_subset _ _ hc)
  verbatim := by
    intro shown
    refine Terminal.plain_eq_self fun c hc => ?_
    rw [String.toList_append, List.mem_append] at hc
    rcases hc with hc | hc
    · exact shown c hc
    · rw [List.mem_singleton.1 hc]
      rfl

theorem lines_events (events : List Event) (last : List Record) :
    Record.lines (threshold none) (events.map Event.record ++ last) =
      Record.lines (threshold none) last := by
  have hidden : Record.shown (threshold none) (events.map Event.record) = [] := by
    rw [Record.shown, List.filter_eq_nil_iff, List.forall_mem_map]
    intro event _
    cases event <;> exact Bool.false_ne_true
  rw [Record.lines, Record.lines, Record.shown, List.filter_append]
  rw [Record.shown] at hidden
  rw [hidden, List.nil_append, Record.shown]

section Outcomes

variable {output : Output} {input : List UInt8}

theorem analyze_of_table {table : Table}
    (ended : (ColumnStats.analyze {} ⟨input, none⟩ output.sink).outcome = .ok table) :
    (analyze (threshold none) output input).status = 0 ∧
      (analyze (threshold none) output input).stderr = "" := by
  simp only [analyze, ended, conclude, lines_events]
  exact ⟨trivial, rfl⟩

theorem analyze_of_fault {fault : Fault} (kept : fault.isAbandoned = false)
    (ended : (ColumnStats.analyze {} ⟨input, none⟩ output.sink).outcome = .error fault) :
    (analyze (threshold none) output input).status = 1 ∧
      (analyze (threshold none) output input).stderr =
        Terminal.plain (diagnostic fault ++ "\n") := by
  simp only [analyze, ended, conclude, kept, Bool.false_eq_true, if_false, lines_events]
  refine ⟨trivial, ?_⟩
  rw [← line_faultRecord]
  exact String.empty_append

end Outcomes

theorem Output.idle_sink (output : Output) : output.sink.Idle := by
  cases output <;> exact ⟨rfl, rfl⟩

/-- Into a pipe, an input is analyzed without a word, or it fails without output. -/
theorem analyze_pipe (input : List UInt8) :
    let run := ColumnStats.analyze {} ⟨input, none⟩ {}
    let piped := analyze (threshold none) .pipe input
    (∃ table, run.outcome = .ok table ∧ piped.status = 0 ∧ piped.stderr = "" ∧
      piped.stdout = run.sink.taken) ∨
    ∃ fault, run.outcome = .error fault ∧ piped.status = 1 ∧ piped.stdout = [] ∧
      piped.stderr = Terminal.plain (diagnostic fault ++ "\n") ∧
      ∀ text ∈ fault.quoted, Every (· ≠ '\n') text := by
  intro run piped
  have unbuffered : ({} : Sink).Unfailing := ⟨rfl, rfl⟩
  have buffered : Output.pipe.sink.Unfailing := ⟨rfl, rfl⟩
  rcases analysis_cases {} input with ⟨rfl, run⟩ | ⟨-, fault, failed, received⟩ |
    ⟨-, table, out, accepted, -⟩
  · exact Or.inl ⟨.empty, rfl, rfl, rfl, rfl⟩
  · right
    have failed' := failed {} ⟨rfl, rfl⟩
    obtain ⟨status, stderr⟩ :=
      analyze_of_fault (isAbandoned_of_failed unbuffered failed') (failed _ Output.pipe.idle_sink)
    exact ⟨fault, failed', status, (List.append_eq_nil_iff.1 (received _ buffered)).1, stderr,
      (quoted_of_failed unbuffered failed').2⟩
  · left
    obtain ⟨ended, taken⟩ := accepted _ buffered
    obtain ⟨ended', taken'⟩ := accepted _ unbuffered
    obtain ⟨status, stderr⟩ := analyze_of_table ended
    exact ⟨table, ended', status, stderr, taken.trans taken'.symm⟩

end Command

end ColumnStats
