import ColumnStats.Analysis
import ColumnStats.Proofs.Rows

/-!
# Runs of an analysis

A run takes lines until the first that ends it; where there is none, it reports on the rows.

* `Ends`: the line that ends a run;
* `Collector.Holds.addLines`: **what reading lines does**, whatever follows the line that ends it;
* `Course`: the four ways a run can take; `course_analyze`: **every run takes one of them**;
* `analyze_of_rows`, `analyze_of_refused`: runs on lines that are rows, up to one that is not;
* `analyze_of_any_sink`: the sink matters to the report only;
* `Source.lineBytes_eq_of_lines_eq`: lines that were all read are those of the source.
-/

namespace ColumnStats

open Text

/-! ## Reading lines -/

/-- The line with this number ends the run: it cannot be read, or is refused as a row. -/
inductive Ends (delimiter : Char) (labels : List String) (number : Nat) :
    Except ReadFailure String → Fault → Prop
  | unreadable (failure : ReadFailure) :
    Ends delimiter labels number (.error failure) (.unreadable failure)
  | refused {line : String} {fault : Fault}
    (verdict : Verdict labels number (fields delimiter line) (.error fault)) :
    Ends delimiter labels number (.ok line) fault

namespace Collector

variable {collector : Collector} {delimiter : Char} {labels : List String}
  {rows : List (List Binary64)}

/-- **What reading lines does.** The rows before the first line that ends the run are appended, and
what follows that line does not matter. -/
theorem Holds.addLines (h : collector.Holds delimiter labels rows)
    (lines : List (Except ReadFailure String)) : ∃ texts new next,
      List.Forall₂ (IsRow delimiter labels.length) texts new ∧
      next.Holds delimiter labels (rows ++ new) ∧
      (lines = texts.map .ok ∧ collector.addLines lines = (next, none) ∨
      ∃ bad rest fault, lines = texts.map .ok ++ bad :: rest ∧
        Ends delimiter labels (rows.length + texts.length + 2) bad fault ∧
        ∀ rest', collector.addLines (texts.map .ok ++ bad :: rest') = (next, some fault)) := by
  induction lines generalizing collector rows with
  | nil => exact ⟨[], [], collector, .nil, by rwa [List.append_nil], Or.inl ⟨rfl, rfl⟩⟩
  | cons line lines ih =>
    cases line with
    | error failure =>
      refine ⟨[], [], collector, .nil, by rwa [List.append_nil], Or.inr ?_⟩
      exact ⟨_, lines, _, rfl, .unreadable failure, fun _ => rfl⟩
    | ok line =>
      rcases h.addLine line with ⟨row, isRow, e⟩ | ⟨fault, verdict, e⟩
      · obtain ⟨texts, new, next, are, holds, ended⟩ := ih (h.addRow isRow.2)
        rw [List.append_assoc] at holds
        refine ⟨line :: texts, row :: new, next, .cons isRow are, holds, ?_⟩
        rcases ended with ⟨rfl, e'⟩ | ⟨bad, rest, fault, rfl, ends, e'⟩
        · exact Or.inl ⟨rfl, by rw [addLines_of_addLine e, e']⟩
        · refine Or.inr ⟨bad, rest, fault, rfl, ?_, fun rest' => ?_⟩
          · rw [List.length_append, List.length_singleton] at ends
            rwa [List.length_cons, Nat.add_comm texts.length, ← Nat.add_assoc]
          · rw [List.map_cons, List.cons_append, addLines_of_addLine e, e']
      · refine ⟨[], [], collector, .nil, by rwa [List.append_nil], Or.inr ?_⟩
        exact ⟨_, lines, fault, rfl, .refused verdict, addLines_of_refused e⟩

theorem Holds.addLines_append (h : collector.Holds delimiter labels rows) {texts : List String}
    {new : List (List Binary64)} (are : List.Forall₂ (IsRow delimiter labels.length) texts new)
    (rest : List (Except ReadFailure String)) :
    ∃ next : Collector, next.Holds delimiter labels (rows ++ new) ∧
      collector.addLines (texts.map .ok ++ rest) = next.addLines rest := by
  induction are generalizing collector rows with
  | nil => exact ⟨collector, by rwa [List.append_nil], rfl⟩
  | @cons text row texts new isRow are ih =>
    obtain ⟨reads, width⟩ := isRow
    have taken := h.readRow_eq (.row reads (reads.length_eq.trans width))
    obtain ⟨next, holds, e⟩ := ih (h.addRow width)
    rw [List.append_assoc] at holds
    refine ⟨next, holds, ?_⟩
    rw [List.map_cons, List.cons_append, Collector.addLines, taken]
    exact e

end Collector

/-! ## Ways of a run -/

/-- The way that a run takes. -/
inductive Course (settings : Settings) (delimiter : Char) (source : Source) (sink : Sink) : Prop
  | noLine (lines : source.lines = [])
    (run : analyze settings source sink = ⟨.ok .empty, sink, [.emptyInput]⟩)
  | noHeader {failure : ReadFailure} {rest : List (Except ReadFailure String)}
    (lines : source.lines = .error failure :: rest)
    (run : ∀ (other : Source) (rest' : List (Except ReadFailure String)),
      other.lines = .error failure :: rest' →
      analyze settings other sink = ⟨.error (.unreadable failure), sink, []⟩)
  | ended {header : String} {texts : List String} {new : List (List Binary64)}
    {bad : Except ReadFailure String} {rest : List (Except ReadFailure String)} {fault : Fault}
    (lines : source.lines = (header :: texts).map .ok ++ bad :: rest)
    (rows : List.Forall₂ (Collector.IsRow delimiter (fields delimiter header).length) texts new)
    (ends : Ends delimiter ((fields delimiter header).map String.ofList) (texts.length + 2)
      bad fault)
    (run : ∃ events, ∀ (other : Source) (rest' : List (Except ReadFailure String)),
      other.lines = (header :: texts).map .ok ++ bad :: rest' →
      analyze settings other sink = ⟨.error fault, sink, events⟩)
  | report {header : String} {texts : List String} {new : List (List Binary64)} {table : Table}
    (lines : source.lines = (header :: texts).map .ok)
    (rows : List.Forall₂ (Collector.IsRow delimiter (fields delimiter header).length) texts new)
    (holds : table.Holds ((fields delimiter header).map String.ofList) new)
    (outcome : (analyze settings source sink).outcome =
      match (table.report settings.z sink).fault with
      | some fault => .error fault
      | none => .ok table)
    (written : (analyze settings source sink).sink = (table.report settings.z sink).sink)

section Header

variable {settings : Settings} {source : Source} {header : String} {next : Collector}
  {rest : List (Except ReadFailure String)}

theorem analyze_of_ended (lines : source.lines = .ok header :: rest) {fault : Fault}
    (ended : (Collector.ofHeader settings.delimiter header).addLines rest = (next, some fault))
    (sink : Sink) : analyze settings source sink = ⟨.error fault, sink,
      (Collector.ofHeader settings.delimiter header).headerEvent :: next.rowEvents⟩ := by
  rw [analyze, lines]
  simp only [ended]

theorem analyze_of_taken (lines : source.lines = .ok header :: rest)
    (taken : (Collector.ofHeader settings.delimiter header).addLines rest = (next, none))
    (sink : Sink) : (analyze settings source sink).outcome =
        (match (next.table.report settings.z sink).fault with
        | some fault => .error fault
        | none => .ok next.table) ∧
      (analyze settings source sink).sink = (next.table.report settings.z sink).sink := by
  rw [analyze, lines]
  simp only [taken]
  exact ⟨rfl, rfl⟩

end Header

/-- **Every run takes one of these ways.** -/
theorem course_analyze (settings : Settings) (source : Source) (sink : Sink) :
    Course settings (Char.ofUInt8 settings.delimiter) source sink := by
  rcases h : source.lines with _ | ⟨failure | header, rest⟩
  · exact .noLine h (by rw [analyze, h])
  · exact .noHeader h fun other rest' h' => by rw [analyze, h']
  · obtain ⟨texts, new, next, rows, holds, ended⟩ :=
      (Collector.holds_ofHeader settings.delimiter header).addLines rest
    rw [List.length_map] at rows
    rcases ended with ⟨rfl, e⟩ | ⟨bad, rest, fault, rfl, ends, e⟩
    · obtain ⟨outcome, written⟩ := analyze_of_taken h e sink
      exact .report h rows holds.table outcome written
    · rw [List.length_nil, Nat.zero_add] at ends
      exact .ended h rows ends ⟨_, fun other rest' h' => analyze_of_ended h' (e rest') sink⟩

/-- **The sink matters to the report only.** A source without lines and a line that ends the run
leave every sink as it was; otherwise the table that is reported on is the same for every sink. -/
theorem analyze_of_any_sink (settings : Settings) (source : Source) :
    (source.lines = [] ∧
      ∀ sink, analyze settings source sink = ⟨.ok .empty, sink, [.emptyInput]⟩) ∨
    (∃ fault events, ∀ sink, analyze settings source sink = ⟨.error fault, sink, events⟩) ∨
    ∃ header texts new table, source.lines = (header :: texts).map .ok ∧
      List.Forall₂ (Collector.IsRow (Char.ofUInt8 settings.delimiter)
        (fields (Char.ofUInt8 settings.delimiter) header).length) texts new ∧
      table.Holds ((fields (Char.ofUInt8 settings.delimiter) header).map String.ofList) new ∧
      ∀ sink, (analyze settings source sink).outcome =
          (match (table.report settings.z sink).fault with
          | some fault => .error fault
          | none => .ok table) ∧
        (analyze settings source sink).sink = (table.report settings.z sink).sink := by
  rcases h : source.lines with _ | ⟨failure | header, rest⟩
  · exact Or.inl ⟨rfl, fun sink => by rw [analyze, h]⟩
  · exact Or.inr (Or.inl ⟨.unreadable failure, [], fun sink => by rw [analyze, h]⟩)
  · obtain ⟨texts, new, next, rows, holds, ended⟩ :=
      (Collector.holds_ofHeader settings.delimiter header).addLines rest
    rw [List.length_map] at rows
    rcases ended with ⟨rfl, e⟩ | ⟨bad, rest, fault, rfl, ends, e⟩
    · exact Or.inr (Or.inr ⟨header, texts, new, next.table, rfl, rows, holds.table,
        analyze_of_taken h e⟩)
    · exact Or.inr (Or.inl ⟨fault, _, analyze_of_ended h (e rest)⟩)

section Known

variable {settings : Settings} {source : Source} {header : String} {texts : List String}
  {new : List (List Binary64)}

theorem analyze_of_rows (lines : source.lines = (header :: texts).map .ok)
    (are : List.Forall₂ (Collector.IsRow (Char.ofUInt8 settings.delimiter)
      (fields (Char.ofUInt8 settings.delimiter) header).length) texts new) : ∃ table : Table,
      table.Holds ((fields (Char.ofUInt8 settings.delimiter) header).map String.ofList) new ∧
      ∀ sink, (analyze settings source sink).outcome =
          (match (table.report settings.z sink).fault with
          | some fault => .error fault
          | none => .ok table) ∧
        (analyze settings source sink).sink = (table.report settings.z sink).sink := by
  rw [← List.length_map (f := String.ofList)] at are
  obtain ⟨next, holds, taken⟩ :=
    (Collector.holds_ofHeader settings.delimiter header).addLines_append are []
  rw [List.append_nil, Collector.addLines] at taken
  exact ⟨next.table, holds.table, analyze_of_taken lines taken⟩

theorem analyze_of_refused {bad : String} {rest : List (Except ReadFailure String)} {fault : Fault}
    (lines : source.lines = (header :: texts).map .ok ++ .ok bad :: rest)
    (are : List.Forall₂ (Collector.IsRow (Char.ofUInt8 settings.delimiter)
      (fields (Char.ofUInt8 settings.delimiter) header).length) texts new)
    (verdict : Verdict ((fields (Char.ofUInt8 settings.delimiter) header).map String.ofList)
      (texts.length + 2) (fields (Char.ofUInt8 settings.delimiter) bad) (.error fault))
    (sink : Sink) : ∃ events, analyze settings source sink = ⟨.error fault, sink, events⟩ := by
  rw [← List.length_map (f := String.ofList)] at are
  obtain ⟨next, holds, taken⟩ :=
    (Collector.holds_ofHeader settings.delimiter header).addLines_append are (.ok bad :: rest)
  rw [are.length_eq] at verdict
  rw [Collector.addLines, holds.readRow_eq verdict] at taken
  exact ⟨_, analyze_of_ended lines taken sink⟩

end Known

/-! ## Lines of a source -/

theorem exists_line_of_map_readLine {lines : List (List UInt8)} {texts : List String}
    {bad : Except ReadFailure String} {rest : List (Except ReadFailure String)}
    (h : lines.map readLine = texts.map .ok ++ bad :: rest) :
    ∃ line after, lines = texts.map encode ++ line :: after ∧ readLine line = bad := by
  obtain ⟨before, others, rfl, hb, ho⟩ := List.map_eq_append_iff.1 h
  obtain ⟨line, after, rfl, e, -⟩ := List.map_eq_cons_iff.1 ho
  exact ⟨line, after, by rw [map_readLine_eq_map_ok_iff.1 hb], e⟩

theorem Source.lineBytes_eq_of_lines_eq {source : Source} {texts : List String}
    (h : source.lines = texts.map .ok) : lineBytes source.bytes = texts.map encode := by
  unfold Source.lines at h
  split at h
  · exact map_readLine_eq_map_ok_iff.1 h
  · next fault _ =>
    have mem : Except.error (ReadFailure.device fault.failure) ∈ texts.map .ok := by
      rw [← h]
      exact List.mem_append_right _ List.mem_cons_self
    simp at mem

end ColumnStats
