import ColumnStats.Proofs.Acceptance
import ColumnStats.Proofs.Output

/-!
# Reading an output back

The lines of an output are cut after their line feeds, and each of them at its last two spaces. This
needs to know nothing of the input, of the delimiter or of the labels.

* `readBack`: the label and the two numbers of every line of an output;
* `Printed.ofLine_text`: **the line of a summary is cut into what was printed**, whatever its label;
* `readBack_flatMap_line`: all lines are found, in their order;
* `output_reads_back`: **the output of an accepted input can be read back**, and accepted inputs
  with one output have the same labels and the same numbers.
-/

namespace ColumnStats

open Text

/-! ## Cutting lines -/

/-- The byte that parts the fields of a line of the report. -/
def space : UInt8 := 32

/-- The bytes before and after the last separator. -/
def cutLast (separator : UInt8) (bytes : List UInt8) : List UInt8 × List UInt8 :=
  let backwards := bytes.reverse
  ((backwards.dropWhile (· != separator)).tail.reverse,
    (backwards.takeWhile (· != separator)).reverse)

/-- The label and the two numbers of a column, in bytes. -/
structure Printed where
  label : List UInt8
  mean : List UInt8
  halfWidth : List UInt8
  deriving DecidableEq

namespace Printed

/-- What is printed of a summary. -/
def ofSummary (summary : Summary) : Printed :=
  ⟨encode summary.label, encodeChars (summary.mean.fixed Summary.places),
    encodeChars (summary.halfWidth.fixed Summary.places)⟩

/-- The line, cut at its last two spaces. -/
def ofLine (line : List UInt8) : Printed :=
  let (front, halfWidth) := cutLast space line
  let (label, mean) := cutLast space front
  ⟨label, mean, halfWidth⟩

end Printed

/-- The label and the numbers of every line that ends with a line feed. -/
def readBack (bytes : List UInt8) : List Printed :=
  (bytes.splitOn lineFeed).dropLast.map Printed.ofLine

theorem cutLast_append {separator : UInt8} {before after : List UInt8} (h : separator ∉ after) :
    cutLast separator (before ++ separator :: after) = (before, after) := by
  have passed : ∀ byte ∈ after.reverse, (byte != separator) = true := by
    intro byte mem
    rw [bne_iff_ne]
    rintro rfl
    exact h (List.mem_reverse.1 mem)
  have backwards : (before ++ separator :: after).reverse =
      after.reverse ++ separator :: before.reverse := by simp
  simp only [cutLast, backwards]
  rw [List.takeWhile_append_of_pos passed, List.dropWhile_append_of_pos passed,
    List.takeWhile_cons_of_neg (by simp), List.dropWhile_cons_of_neg (by simp), List.append_nil,
    List.tail_cons, List.reverse_reverse, List.reverse_reverse]

theorem space_notMem_fixed (places : Nat) (x : Binary64) :
    space ∉ encodeChars (x.fixed places) := by
  rw [mem_encodeChars_iff (c := ' ') rfl (by decide)]
  exact x.notMem_fixed (by decide) (by decide) places

/-- **The line of a summary is cut into what was printed**, whatever its label. -/
theorem Printed.ofLine_text (summary : Summary) :
    ofLine (encode summary.text) = ofSummary summary := by
  have parts : encode summary.text = (encode summary.label ++
      space :: encodeChars (summary.mean.fixed Summary.places)) ++
        space :: encodeChars (summary.halfWidth.fixed Summary.places) := by
    simp only [Summary.text, encode_eq, String.toList_append, String.toList_ofList,
      encodeChars_append, List.append_assoc]
    rfl
  rw [ofLine, parts, cutLast_append (space_notMem_fixed _ _)]
  simp only [cutLast_append (space_notMem_fixed _ _)]
  rfl

theorem readBack_flatMap_line {summaries : List Summary}
    (unbroken : ∀ summary ∈ summaries, lineFeed ∉ encode summary.text) :
    readBack (summaries.flatMap Summary.line) = summaries.map Printed.ofSummary := by
  induction summaries with
  | nil => rfl
  | cons summary summaries ih =>
    obtain ⟨first, rest⟩ := List.forall_mem_cons.1 unbroken
    have later := ih rest
    rw [readBack] at later ⊢
    rw [List.flatMap_cons, Summary.line_eq, List.append_assoc, List.singleton_append,
      List.splitOn_append_cons_self_of_not_mem first,
      List.dropLast_cons_of_ne_nil (List.splitOn_ne_nil _ _), List.map_cons, later,
      Printed.ofLine_text, List.map_cons]

/-! ## Outputs -/

theorem exists_summaries_of_outcome {settings : Settings} {bytes : List UInt8} {sink : Sink}
    (unfailing : sink.Unfailing) {table : Table}
    (accepted : (analyze settings ⟨bytes, none⟩ sink).outcome = .ok table) : ∃ summaries,
      table.Summarized settings.z summaries ∧
      (∀ summary ∈ summaries, lineFeed ∉ encode summary.text) ∧
      (analyze settings ⟨bytes, none⟩ sink).sink.received =
        sink.received ++ summaries.flatMap Summary.line := by
  by_cases nonempty : bytes = []
  · subst nonempty
    obtain rfl : Table.empty = table := Except.ok.inj accepted
    exact ⟨[], .nil, by simp, (List.append_nil _).symm⟩
  obtain ⟨header, texts, rows, lines, -, holds, enough, written⟩ :=
    exists_rows_of_outcome unfailing accepted nonempty
  obtain ⟨summaries, summarized, -, received, -⟩ :=
    holds.report_of_two_le enough unfailing settings.z
  have mem : encode header ∈ lineBytes bytes := by
    rw [lines]
    exact List.mem_cons_self
  exact ⟨summaries, summarized, summarized.unbroken (holds.newline_notMem mem),
    by rw [written, received]⟩

theorem Table.Summarized.map_label_ofSummary {table : Table} {z : Binary64}
    {summaries : List Summary} (h : table.Summarized z summaries) :
    (summaries.map Printed.ofSummary).map Printed.label = table.labels.map encode := by
  rw [← h.map_label, List.map_map, List.map_map]
  rfl

theorem fixed_eq_of_ofSummary_eq {summary summary' : Summary}
    (h : Printed.ofSummary summary = Printed.ofSummary summary') :
    summary.mean.fixed Summary.places = summary'.mean.fixed Summary.places ∧
      summary.halfWidth.fixed Summary.places = summary'.halfWidth.fixed Summary.places := by
  have injective {text text' : List Char} (e : encodeChars text = encodeChars text') :
      text = text' := by
    rw [← encode_ofList, ← encode_ofList] at e
    exact String.ofList_injective (encode_injective e)
  exact ⟨injective (congrArg Printed.mean h), injective (congrArg Printed.halfWidth h)⟩

/-- **The output of an accepted input can be read back**: cut after its line feeds and at the last
two spaces of each line, it gives labels and numbers. -/
theorem output_reads_back {settings settings' : Settings} {bytes bytes' : List UInt8}
    {sink sink' : Sink} (unfailing : sink.Unfailing) (unfailing' : sink'.Unfailing)
    {table table' : Table}
    (accepted : (analyze settings ⟨bytes, none⟩ sink).outcome = .ok table)
    (accepted' : (analyze settings' ⟨bytes', none⟩ sink').outcome = .ok table') :
    ∃ out out' summaries summaries',
      (analyze settings ⟨bytes, none⟩ sink).sink.received = sink.received ++ out ∧
      (analyze settings' ⟨bytes', none⟩ sink').sink.received = sink'.received ++ out' ∧
      table.Summarized settings.z summaries ∧ table'.Summarized settings'.z summaries' ∧
      readBack out = summaries.map Printed.ofSummary ∧
      (readBack out).map Printed.label = table.labels.map encode ∧
      (out = out' → table.labels = table'.labels ∧
        List.Forall₂ (fun summary summary' : Summary =>
          summary.mean.fixed Summary.places = summary'.mean.fixed Summary.places ∧
          summary.halfWidth.fixed Summary.places = summary'.halfWidth.fixed Summary.places)
          summaries summaries') := by
  obtain ⟨summaries, summarized, unbroken, received⟩ :=
    exists_summaries_of_outcome unfailing accepted
  obtain ⟨summaries', summarized', unbroken', received'⟩ :=
    exists_summaries_of_outcome unfailing' accepted'
  have read := readBack_flatMap_line unbroken
  refine ⟨_, _, summaries, summaries', received, received', summarized, summarized', read, ?_, ?_⟩
  · rw [read, summarized.map_label_ofSummary]
  · intro same
    have printed : summaries.map Printed.ofSummary = summaries'.map Printed.ofSummary := by
      rw [← read, same, readBack_flatMap_line unbroken']
    constructor
    · have labels := congrArg (List.map Printed.label) printed
      rw [summarized.map_label_ofSummary, summarized'.map_label_ofSummary] at labels
      exact List.map_injective_iff.2 (fun _ _ => encode_injective) labels
    · rw [← List.forall₂_eq_eq_eq, List.forall₂_map_left_iff, List.forall₂_map_right_iff] at printed
      exact printed.imp fun _ _ => fixed_eq_of_ofSummary_eq

/-- A label that looks like a number, and one with spaces, are read back. -/
theorem misleading_labels_read_back : ({} : Sink).Unfailing ∧
    (analyze {} ⟨encode "7.5, a  1 \n1,2\n1,4\n", none⟩ {}).outcome =
      .ok ⟨[⟨"7.5", #[.ofNat 1, .ofNat 1]⟩, ⟨"a  1", #[.ofNat 2, .ofNat 4]⟩], 2⟩ ∧
    ∃ out, (analyze {} ⟨encode "7.5, a  1 \n1,2\n1,4\n", none⟩ {}).sink.received = out ∧
      (readBack out).map Printed.label = [encode "7.5", encode "a  1"] := by
  have unfailing : ({} : Sink).Unfailing := ⟨rfl, rfl⟩
  have accepted : (analyze {} ⟨encode "7.5, a  1 \n1,2\n1,4\n", none⟩ {}).outcome =
      .ok ⟨[⟨"7.5", #[.ofNat 1, .ofNat 1]⟩, ⟨"a  1", #[.ofNat 2, .ofNat 4]⟩], 2⟩ := by
    decide +kernel
  obtain ⟨out, -, -, -, received, -, -, -, -, labels, -⟩ :=
    output_reads_back unfailing unfailing accepted accepted
  exact ⟨unfailing, accepted, out, by simpa [Sink.received] using received, labels⟩

end ColumnStats
