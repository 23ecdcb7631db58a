import ColumnStats.Proofs.Diagnostics
import ColumnStats.Proofs.Printing
import ColumnStats.Proofs.Renderings

/-!
# Samples, analyzed

What the sampling command writes is read by the analyzing command: every number of a sample is a
numeral, and a broken sample is refused where it was broken.

* `readCount_toString`: a row count is read as it is printed;
* `writeBlocks_unfailing`: everything is written to a device that does not fail;
* `isRecords_plain`: lines of bare fields have these fields;
* `rows_eq_map`: **the rows of all shapes come from one stream**; `rows_eq`: the rows around the middle
  one;
* `samples_are_analyzed`: **what an analysis makes of each kind of sample**.
-/

namespace ColumnStats

open Text

/-! ## Arguments -/

namespace Sample

theorem readDigits_eq_ok {digits : List Char} {count : Nat} (are : Numeral.IsDigits digits)
    (small : Nat.ofDigitChars 10 digits count < countLimit) :
    readDigits count digits = .ok (Nat.ofDigitChars 10 digits count) := by
  induction digits generalizing count with
  | nil => rfl
  | cons c digits ih =>
    obtain ⟨digit, rest⟩ := List.forall_mem_cons.1 are
    rw [Nat.ofDigitChars_cons] at small ⊢
    -- what was read so far is no more than what is read in the end
    have next : 10 * count + (c.toNat - '0'.toNat) < countLimit := by
      rw [Nat.ofDigitChars_eq_ofDigitChars_zero] at small
      have grows := Nat.le_mul_of_pos_left (10 * count + (c.toNat - '0'.toNat))
        (Nat.pow_pos (n := digits.length) (by decide : 0 < 10))
      omega
    rw [readDigits, if_pos digit]
    simp only [if_pos next]
    exact ih rest small

theorem readCount_append {sign text : List Char} (isSign : sign = [] ∨ sign = ['+'])
    (nonempty : text ≠ []) (first : sign = [] → text.head? ≠ some '+') :
    readCount (sign ++ text) = readDigits 0 text := by
  rcases isSign with rfl | rfl
  · rw [List.nil_append]
    unfold readCount
    split
    · exact absurd rfl nonempty
    · exact absurd rfl (first rfl)
    · exact absurd rfl (first rfl)
    · rfl
  · obtain ⟨c, rest, rfl⟩ := List.exists_cons_of_ne_nil nonempty
    rfl

theorem head?_ne_plus {digits : List Char} (are : Numeral.IsDigits digits) :
    digits.head? ≠ some '+' := fun first =>
  absurd (are '+' (List.mem_of_mem_head? first)) (by decide)

theorem readCount_toString {count : Nat} (small : count < countLimit) :
    readCount (toString count).toList = .ok count := by
  have digits : Numeral.IsDigits (Nat.toDigits 10 count) :=
    fun c hc => Nat.isDigit_of_mem_toDigits (by omega) (by omega) hc
  have read : readDigits 0 (Nat.toDigits 10 count) =
      .ok (Nat.ofDigitChars 10 (Nat.toDigits 10 count) 0) :=
    readDigits_eq_ok digits (by rwa [Nat.ofDigitChars_ten_toDigits])
  rw [Nat.ofDigitChars_ten_toDigits] at read
  rw [Nat.toString_eq_ofList_toDigits, String.toList_ofList, ← read]
  exact readCount_append (Or.inl rfl) Nat.toDigits_ne_nil fun _ => head?_ne_plus digits

end Sample

/-! ## Writing -/

namespace Command

variable {sink : Sink}

theorem writeLines_unfailing (h : sink.Unfailing) (lines : List String) : ∃ written,
    writeLines sink lines = (written, none) ∧ written.Unfailing ∧
      written.received = sink.received ++ lines.flatMap encode := by
  induction lines generalizing sink with
  | nil => exact ⟨sink, rfl, h, (List.append_nil _).symm⟩
  | cons line lines ih =>
    obtain ⟨first, e, unfailing, received, -⟩ := h.write (encode line)
    obtain ⟨written, e', unfailing', received'⟩ := ih unfailing
    refine ⟨written, ?_, unfailing', ?_⟩
    · rw [writeLines, e]
      exact e'
    · rw [received', received, List.flatMap_cons, List.append_assoc]

theorem writeBlock_unfailing (h : sink.Unfailing) (lines : List String) : ∃ flushed,
    writeBlock sink lines = (flushed, none) ∧ flushed.Unfailing ∧ flushed.held = [] ∧
      flushed.taken = sink.received ++ lines.flatMap encode := by
  obtain ⟨written, e, unfailing, received⟩ := writeLines_unfailing h lines
  rw [writeBlock, e]
  simp only [unfailing.flush_eq]
  exact ⟨_, rfl, ⟨unfailing.room, unfailing.flushFailure⟩, rfl, received⟩

theorem writeBlocks_unfailing (h : sink.Unfailing) (idle : sink.held = [])
    (blocks : List (List String)) : ∃ written, writeBlocks sink blocks = (written, none) ∧
      written.taken = sink.taken ++ blocks.flatten.flatMap encode := by
  induction blocks generalizing sink with
  | nil => exact ⟨sink, rfl, (List.append_nil _).symm⟩
  | cons block blocks ih =>
    obtain ⟨first, e, unfailing, held, taken⟩ := writeBlock_unfailing h block
    obtain ⟨written, e', taken'⟩ := ih unfailing held
    refine ⟨written, ?_, ?_⟩
    · rw [writeBlocks, e]
      exact e'
    · rw [taken', taken, Sink.received, idle, List.append_nil, List.flatten_cons,
        List.flatMap_append, List.append_assoc]

end Command

/-! ## Bare fields -/

/-- Neither a comma nor a blank is in the field. -/
def IsBare (field : List Char) : Prop := ∀ c ∈ field, c ≠ ',' ∧ isBlank c = false

instance : DecidablePred IsBare :=
  List.decidableBAll fun c => c ≠ ',' ∧ isBlank c = false

theorem isBare_fixed (places : Nat) (x : Binary64) : IsBare (x.fixed places) := by
  have comma := Binary64.notMem_fixed (c := ',') (by decide) (by decide) places x
  exact fun c hc => ⟨fun e => comma (e ▸ hc), isBlank_of_mem_fixed hc⟩

theorem IsBare.trim_eq {field : List Char} (h : IsBare field) : trim field = field :=
  trim_eq_self (fun c hc => (h c (List.mem_of_mem_head? hc)).2)
    (fun c hc => (h c (List.mem_of_mem_getLast? hc)).2)

theorem isRenderable_of_bare {record : List (List Char)}
    (h : record ≠ [] ∧ ∀ field ∈ record, IsBare field) : IsRenderable ',' record := by
  refine ⟨h.1, fun field mem => ⟨fun comma => ?_, fun newline => ?_⟩⟩
  · exact (h.2 field mem _ comma).1 rfl
  · exact absurd (h.2 field mem _ newline).2 (by decide)

theorem isRecords_plain {records : List (List (List Char))}
    (bare : ∀ record ∈ records, record ≠ [] ∧ ∀ field ∈ record, IsBare field) :
    IsRecords ',' (plain ',' records) records := by
  have renderable : ∀ record ∈ records, IsRenderable ',' record :=
    fun record mem => isRenderable_of_bare (bare record mem)
  have trimmed : records.map (List.map trim) = records := by
    have fields : ∀ record ∈ records, record.map trim = record := fun record hr =>
      (List.map_congr_left fun field hf => ((bare record hr).2 field hf).trim_eq).trans
        (List.map_id record)
    exact (List.map_congr_left fields).trans (List.map_id records)
  have isRecords := (isRendering_plain ',' records).isRecords renderable (by decide) (by decide)
  rwa [trimmed] at isRecords

/-! ## Tables -/

namespace Sample

theorem forall₂_drawFields (columns : List Series) (stream : KeyStream.Stream) :
    List.Forall₂ (fun column field => ∃ word, field = Series.field column word) columns
      (drawFields columns stream).1 := by
  induction columns generalizing stream with
  | nil => exact .nil
  | cons column columns ih => exact .cons ⟨_, rfl⟩ (ih stream.next.2)

theorem exists_of_mem_drawFields {columns : List Series} {stream : KeyStream.Stream}
    {field : String} (mem : field ∈ (drawFields columns stream).1) :
    ∃ column ∈ columns, ∃ word, field = Series.field column word := by
  induction columns generalizing stream with
  | nil => exact absurd mem List.not_mem_nil
  | cons column columns ih =>
    rcases List.mem_cons.1 mem with rfl | mem
    · exact ⟨column, List.mem_cons_self, _, rfl⟩
    · obtain ⟨other, hc, word⟩ := ih mem
      exact ⟨other, List.mem_cons_of_mem _ hc, word⟩

theorem drawFields_snd (columns : List Series) (stream : KeyStream.Stream) :
    (drawFields columns stream).2 = ⟨stream.key, stream.drawn + columns.length⟩ := by
  induction columns generalizing stream with
  | nil => rfl
  | cons column columns ih =>
    refine (ih stream.next.2).trans ?_
    rw [List.length_cons, Nat.add_comm columns.length, ← Nat.add_assoc]
    rfl

/-- The stream before the row with this number. -/
def streamAt (index : Nat) : KeyStream.Stream :=
  ⟨KeyStream.expandSeed seed, series.length * index⟩

/-- The fields that are drawn for the row with this number. -/
def row (index : Nat) : List String := (drawFields series (streamAt index)).1

/-- A row of any shape, broken or not, takes the same words from the stream. -/
theorem drawRows_streamAt (shape : Shape) (middle count index : Nat) :
    drawRows shape middle count index (streamAt index) =
      (List.range' index count).map fun i => if i = middle then breakRow shape (row i) else row i := by
  induction count generalizing index with
  | zero => rfl
  | succ count ih =>
    have next : (drawFields series (streamAt index)).2 = streamAt (index + 1) := by
      rw [drawFields_snd]
      rfl
    rw [drawRows, List.range'_succ, List.map_cons, ← ih, ← next]
    rfl

/-- **The rows of all shapes come from one stream.** -/
theorem rows_eq_map (shape : Shape) (count : Nat) : rows shape count =
    (List.range count).map fun i => if i = count / 2 then breakRow shape (row i) else row i := by
  rw [List.range_eq_range', ← drawRows_streamAt]
  rfl

/-- The fields of a row of noise: as many as there are columns, all bare numerals. -/
structure IsNoise (record : List (List Char)) : Prop where
  length_eq : record.length = series.length
  fields : ∀ field ∈ record, Numeral.IsNumeral field ∧ IsBare field

theorem length_row (index : Nat) : (row index).length = series.length :=
  (forall₂_drawFields series (streamAt index)).length_eq.symm

theorem isNoise_row (index : Nat) : IsNoise ((row index).map String.toList) where
  length_eq := by rw [List.length_map, length_row]
  fields := by
    rw [List.forall_mem_map]
    intro field mem
    obtain ⟨column, -, word, rfl⟩ := exists_of_mem_drawFields mem
    rw [Series.field, String.toList_ofList]
    exact ⟨Numeral.isNumeral_fixed _ _, isBare_fixed _ _⟩

/-- The rows before the middle one, the middle one and the rows after it. Only the middle one depends
on the shape. -/
theorem rows_eq {count : Nat} (positive : 0 < count) : ∃ after : List Nat, ∀ shape,
    rows shape count =
      (List.range (count / 2)).map row ++ breakRow shape (row (count / 2)) :: after.map row := by
  obtain ⟨later, split⟩ : ∃ later, count = count / 2 + (later + 1) :=
    ⟨count - count / 2 - 1, by omega⟩
  refine ⟨(List.range later).map (count / 2 + 1 + ·), fun shape => ?_⟩
  rw [rows_eq_map]
  generalize count / 2 = middle at split ⊢
  rw [split, List.range_add, List.range_succ_eq_map, List.map_append, List.map_cons, List.map_cons,
    List.map_map, List.map_map, List.map_map, Nat.add_zero, if_pos rfl]
  congr 1
  · exact List.map_congr_left fun index early => if_neg (List.mem_range.1 early).ne
  · congr 1
    refine List.map_congr_left fun index _ => ?_
    have late : middle + (index + 1) ≠ middle := by omega
    simp only [Function.comp_apply, Nat.succ_eq_add_one, if_neg late]
    rw [Nat.add_assoc, Nat.add_comm 1]

theorem rows_of_unbroken {shape : Shape} (unbroken : ∀ fields, breakRow shape fields = fields)
    (count : Nat) : rows shape count = (List.range count).map row := by
  simp only [rows_eq_map, unbroken, ite_self]

/-- The fields of all lines of a sample. -/
def lineFields (shape : Shape) (count : Nat) : List (List (List Char)) :=
  (records shape count).map (List.map String.toList) ++ if shape = .blankLine then [[[]]] else []

theorem encode_recordLine (record : List String) : encode (recordLine record) =
    encodeChars ([','].intercalate (record.map String.toList)) ++ [lineFeed] := by
  rw [recordLine, encode_eq, String.toList_append, String.toList_intercalate, encodeChars_append]
  rfl

theorem flatMap_blocks {shape : Shape} (nonempty : shape ≠ .empty) (count : Nat) :
    (Command.blocks shape count).flatten.flatMap encode = plain ',' (lineFields shape count) := by
  have lines : ((records shape count).map recordLine).flatMap encode =
      plain ',' ((records shape count).map (List.map String.toList)) := by
    rw [plain, List.flatMap_map, List.flatMap_map]
    exact List.flatMap_congr fun record _ => encode_recordLine record
  rw [lineFields, plain_append, ← lines]
  cases shape with
  | empty => exact absurd rfl nonempty
  | blankLine =>
    have blank : [["\n"]].flatten.flatMap encode = plain ',' [[[]]] := by decide
    rw [Command.blocks, List.flatten_cons, List.flatMap_append, if_pos rfl, blank]
  | _ =>
    change [(records _ count).map recordLine].flatten.flatMap encode = _
    rw [List.flatten_singleton, if_neg (by decide)]
    exact (List.append_nil _).symm

theorem breakRow_subset (shape : Shape) (fields : List String) :
    breakRow shape fields ⊆ fields ++ ["n/a"] := by
  have kept : fields.dropLast ⊆ fields ++ ["n/a"] :=
    List.Subset.trans (List.dropLast_subset fields) (List.subset_append_left _ _)
  cases shape with
  | nonNumeric => exact List.append_subset.2 ⟨kept, List.subset_append_right _ _⟩
  | shortRow => exact kept
  | _ => exact List.subset_append_left _ _

theorem length_breakRow (shape : Shape) (fields : List String) :
    fields.length - 1 ≤ (breakRow shape fields).length := by
  cases shape <;> simp [breakRow]

theorem isBare_of_mem_records {shape : Shape} {count : Nat} {record : List String}
    (mem : record ∈ records shape count) : record ≠ [] ∧ ∀ field ∈ record, IsBare field.toList := by
  rcases List.mem_cons.1 mem with rfl | mem
  · exact ⟨by decide, by decide⟩
  rw [rows_eq_map] at mem
  obtain ⟨index, -, rfl⟩ := List.mem_map.1 mem
  have noise := isNoise_row index
  have bare : ∀ field ∈ row index ++ ["n/a"], IsBare field.toList := by
    rw [List.forall_mem_append, List.forall_mem_singleton]
    exact ⟨fun field hf => (noise.fields _ (List.mem_map_of_mem hf)).2, by decide⟩
  have length : (row index).length = 4 := length_row index
  split
  · have enough := length_breakRow shape (row index)
    rw [length] at enough
    exact ⟨List.length_pos_iff.1 (by omega), fun field hf => bare field (breakRow_subset _ _ hf)⟩
  · exact ⟨List.length_pos_iff.1 (by omega), fun field hf => bare field (List.mem_append_left _ hf)⟩

theorem isBare_of_mem_lineFields {shape : Shape} {count : Nat} {record : List (List Char)}
    (mem : record ∈ lineFields shape count) : record ≠ [] ∧ ∀ field ∈ record, IsBare field := by
  rcases List.mem_append.1 mem with mapped | blank
  · obtain ⟨texts, written, rfl⟩ := List.mem_map.1 mapped
    obtain ⟨nonempty, bare⟩ := isBare_of_mem_records written
    exact ⟨fun empty => nonempty (List.map_eq_nil_iff.1 empty), List.forall_mem_map.2 bare⟩
  · split at blank
    · rw [List.eq_of_mem_singleton blank]
      decide
    · exact absurd blank List.not_mem_nil

theorem isRecords_lineFields (shape : Shape) (count : Nat) :
    IsRecords ',' (plain ',' (lineFields shape count)) (lineFields shape count) :=
  isRecords_plain fun _ mem => isBare_of_mem_lineFields mem

/-! ## Analyses of samples -/

/-- The labels of every sample. -/
def header : List (List Char) := (series.map Series.label).map String.toList

/-- Rows of noise with these indices. -/
def noise (indices : List Nat) : List (List (List Char)) :=
  (indices.map row).map (List.map String.toList)

theorem length_noise (indices : List Nat) : (noise indices).length = indices.length := by
  rw [noise, List.length_map, List.length_map]

theorem wide_noise (indices : List Nat) : ∀ record ∈ noise indices,
    record.length = header.length ∧ ∀ field ∈ record, Numeral.IsNumeral field := by
  rw [noise, List.forall_mem_map, List.forall_mem_map]
  intro index _
  have isNoise := isNoise_row index
  exact ⟨isNoise.length_eq, fun field hf => (isNoise.fields field hf).1⟩

theorem lineFields_of_unbroken {shape : Shape}
    (unbroken : ∀ fields, breakRow shape fields = fields) (count : Nat) : lineFields shape count =
      header :: (noise (List.range count) ++ if shape = .blankLine then [[[]]] else []) := by
  rw [lineFields, records, rows_of_unbroken unbroken]
  rfl

theorem lineFields_of_broken {shape : Shape} (ended : shape ≠ .blankLine) {count : Nat}
    (positive : 0 < count) : ∃ after, lineFields shape count =
      header :: (noise (List.range (count / 2)) ++
        (breakRow shape (row (count / 2))).map String.toList :: after) := by
  obtain ⟨after, split⟩ := rows_eq positive
  refine ⟨noise after, ?_⟩
  rw [lineFields, records, split shape, if_neg ended, List.append_nil, List.map_cons, List.map_append,
    List.map_cons]
  rfl

variable {bytes : List UInt8} {count : Nat}

theorem analyze_noise (h : IsRecords ',' bytes (header :: noise (List.range count))) :
    ∃ (table : Table) (new : List (List Binary64)), new.length = count ∧
      table.Holds (series.map Series.label) new ∧
      ∀ sink, (analyze {} ⟨bytes, none⟩ sink).outcome =
          (match (table.report ({} : Settings).z sink).fault with
          | some fault => .error fault
          | none => .ok table) ∧
        (analyze {} ⟨bytes, none⟩ sink).sink = (table.report ({} : Settings).z sink).sink := by
  obtain ⟨table, new, length, holds, run⟩ := @analyze_of_records {} bytes _ _ h (wide_noise _)
  rw [length_noise, List.length_range] at length
  exact ⟨table, new, length, holds, run⟩

theorem outcome_of_few (h : IsRecords ',' bytes (header :: noise (List.range count)))
    (few : count < 2) :
    (analyze {} ⟨bytes, none⟩ {}).outcome = .error (.tooFew "solve_ms" count) := by
  obtain ⟨table, new, rfl, holds, run⟩ := analyze_noise h
  rw [(run {}).1, (holds.report_of_lt_two few ⟨rfl, rfl⟩ _).1]

theorem outcome_of_blankLine
    (h : IsRecords ',' bytes (header :: (noise (List.range count) ++ [[[]]]))) :
    (analyze {} ⟨bytes, none⟩ {}).outcome = .error (.notNumber (count + 2) "solve_ms" "") := by
  have named : IsColumnName (series.map Series.label) 0 "solve_ms" := Or.inl ⟨by decide, rfl⟩
  have verdict : Verdict (header.map String.ofList) (count + 2) [[]]
      (.error (.notNumber (count + 2) "solve_ms" "")) :=
    @Verdict.notNumber _ _ _ [] [] [] _ rfl (by simp) (by decide) named
  refine @outcome_of_refused {} bytes _ _ _ _ _ h (wide_noise _) ?_ {}
  rwa [length_noise, List.length_range]

theorem dropLast_row (index : Nat) : ((row index).dropLast.map String.toList).length = 3 ∧
    ∀ field ∈ (row index).dropLast.map String.toList, Numeral.IsNumeral field := by
  have isNoise := isNoise_row index
  rw [List.map_dropLast]
  refine ⟨?_, fun field hf => (isNoise.fields field (List.dropLast_subset _ hf)).1⟩
  rw [List.length_dropLast, isNoise.length_eq]
  rfl

theorem outcome_of_nonNumeric {after : List (List (List Char))} {middle : Nat}
    (h : IsRecords ',' bytes (header :: (noise (List.range middle) ++
      (breakRow .nonNumeric (row middle)).map String.toList :: after))) :
    (analyze {} ⟨bytes, none⟩ {}).outcome = .error (.notNumber (middle + 2) "restarts" "n/a") := by
  obtain ⟨length, numerals⟩ := dropLast_row middle
  have named : IsColumnName (series.map Series.label)
      ((row middle).dropLast.map String.toList).length "restarts" := by
    rw [length]
    exact Or.inl ⟨by decide, rfl⟩
  have split : (breakRow .nonNumeric (row middle)).map String.toList =
      (row middle).dropLast.map String.toList ++ ["n/a".toList] := by
    rw [breakRow, List.map_append]
    rfl
  have verdict : Verdict (header.map String.ofList) (middle + 2)
      ((breakRow .nonNumeric (row middle)).map String.toList)
      (.error (.notNumber (middle + 2) "restarts" "n/a")) :=
    .notNumber split numerals (by decide) named
  refine @outcome_of_refused {} bytes _ _ _ _ _ h (wide_noise _) ?_ {}
  rwa [length_noise, List.length_range]

theorem outcome_of_shortRow {after : List (List (List Char))} {middle : Nat}
    (h : IsRecords ',' bytes (header :: (noise (List.range middle) ++
      (breakRow .shortRow (row middle)).map String.toList :: after))) :
    (analyze {} ⟨bytes, none⟩ {}).outcome = .error (.width (middle + 2) 4 3) := by
  obtain ⟨length, numerals⟩ := dropLast_row middle
  have verdict : Verdict (header.map String.ofList) (middle + 2)
      ((breakRow .shortRow (row middle)).map String.toList) (.error (.width (middle + 2) 4 3)) := by
    have narrow : ((row middle).dropLast.map String.toList).length ≠
        (header.map String.ofList).length := by
      rw [length]
      decide
    rw [← length]
    exact .width numerals narrow
  refine @outcome_of_refused {} bytes _ _ _ _ _ h (wide_noise _) ?_ {}
  rwa [length_noise, List.length_range]

end Sample

/-! ## Both commands -/

namespace Command

open Sample

/-- The outcome of sampling a named shape with a number of rows. -/
def sampled (name : String) (count : Nat) : Outcome :=
  sample (threshold none) .pipe [name, toString count]

/-- The outcome of analyzing what was sampled. -/
def analyzed (name : String) (count : Nat) : Outcome :=
  analyze (threshold none) .pipe (sampled name count).stdout

/-- The sample is written, and it is refused with this fault and without output. -/
structure IsRefused (name : String) (count : Nat) (fault : Fault) : Prop where
  sampled : (sampled name count).status = 0
  outcome : (ColumnStats.analyze {} ⟨(Command.sampled name count).stdout, none⟩ {}).outcome =
    .error fault
  status : (analyzed name count).status = 1
  stdout : (analyzed name count).stdout = []
  stderr : (analyzed name count).stderr = diagnostic fault ++ "\n"

/-- The sample is written, and the output has one line for each of these labels. -/
structure IsReported (name : String) (count : Nat) (labels : List String) : Prop where
  sampled : (sampled name count).status = 0
  status : (analyzed name count).status = 0
  stderr : (analyzed name count).stderr = ""
  stdout : ∃ (table : Table) (summaries : List Summary),
    (ColumnStats.analyze {} ⟨(Command.sampled name count).stdout, none⟩ {}).outcome = .ok table ∧
    table.Summarized ({} : Settings).z summaries ∧ summaries.map Summary.label = labels ∧
    (analyzed name count).stdout =
      summaries.flatMap (fun summary => encode summary.text ++ [lineFeed]) ∧
    ∀ summary ∈ summaries, lineFeed ∉ encode summary.text

variable {name : String} {shape : Shape} {count : Nat}

theorem sample_eq {arguments : List String} {asked : Arguments}
    (read : Arguments.ofList arguments = .ok asked) : sample (threshold none) .pipe arguments =
      ⟨0, (blocks asked.shape (asked.shape.rowCount asked.rows)).flatten.flatMap encode, ""⟩ := by
  obtain ⟨written, e, taken⟩ := @writeBlocks_unfailing Output.pipe.sink ⟨rfl, rfl⟩ rfl
    (blocks asked.shape (asked.shape.rowCount asked.rows))
  have hidden : Record.lines (threshold none)
    [sampleRecord asked.shape (asked.shape.rowCount asked.rows)] = "" := rfl
  rw [sample, read]
  simp only [e, taken, hidden]
  rfl

theorem sampled_eq (named : Shape.ofName? name = some shape) (small : count < countLimit) :
    sampled name count =
      ⟨0, (blocks shape (shape.rowCount count)).flatten.flatMap encode, ""⟩ := by
  have asked : Arguments.ofList [name, toString count] = .ok { shape, rows := count } := by
    simp only [Arguments.ofList, named, readCount_toString small]
  exact sample_eq asked

theorem stdout_sampled (named : Shape.ofName? name = some shape) (small : count < countLimit)
    (nonempty : shape ≠ .empty) :
    (sampled name count).stdout = plain ',' (lineFields shape (shape.rowCount count)) := by
  rw [sampled_eq named small, flatMap_blocks nonempty]

theorem isRecords_sampled (named : Shape.ofName? name = some shape) (small : count < countLimit)
    (nonempty : shape ≠ .empty) :
    IsRecords ',' (sampled name count).stdout (lineFields shape (shape.rowCount count)) := by
  rw [stdout_sampled named small nonempty]
  exact isRecords_lineFields shape _

theorem isRecords_of_unbroken (named : Shape.ofName? name = some shape)
    (small : count < countLimit) (nonempty : shape ≠ .empty) (ended : shape ≠ .blankLine)
    (unbroken : ∀ fields, breakRow shape fields = fields) :
    IsRecords ',' (sampled name count).stdout
      (Sample.header :: noise (List.range (shape.rowCount count))) := by
  have records := isRecords_sampled named small nonempty
  rwa [lineFields_of_unbroken unbroken, if_neg ended, List.append_nil] at records

theorem exists_isRecords_of_broken (named : Shape.ofName? name = some shape)
    (small : count < countLimit) (nonempty : shape ≠ .empty) (ended : shape ≠ .blankLine)
    (positive : 0 < shape.rowCount count) : ∃ after, IsRecords ',' (sampled name count).stdout
      (Sample.header :: (noise (List.range (shape.rowCount count / 2)) ++
        (breakRow shape (row (shape.rowCount count / 2))).map String.toList :: after)) := by
  have records := isRecords_sampled named small nonempty
  obtain ⟨after, split⟩ := lineFields_of_broken ended positive
  exact ⟨after, split ▸ records⟩

theorem isRefused_of_outcome (named : Shape.ofName? name = some shape) (small : count < countLimit)
    {fault : Fault}
    (failed : (ColumnStats.analyze {} ⟨(sampled name count).stdout, none⟩ {}).outcome =
      .error fault) (ascii : ∀ text ∈ fault.quoted, Every IsAscii text) :
    IsRefused name count fault := by
  have status : (sampled name count).status = 0 := by rw [sampled_eq named small]
  rcases analyze_pipe (sampled name count).stdout with ⟨table, ended, -⟩ |
    ⟨fault', ended, status', stdout, stderr, quoted⟩
  · simp [failed] at ended
  · obtain rfl : fault = fault' := by simpa [failed] using ended
    have shown : Every (fun c => Terminal.isShown c) (diagnostic fault) :=
      every_diagnostic (fun _ => Terminal.isShown_of_isAscii)
        fun text ht c hc => Terminal.isShown_of_isAscii (ascii text ht c hc)
    refine ⟨status, failed, status', stdout, ?_⟩
    rw [analyzed, stderr]
    exact (isPrinted_plain quoted).verbatim shown

theorem isReported_of_noise (named : Shape.ofName? name = some shape) (small : count < countLimit)
    (h : IsRecords ',' (sampled name count).stdout (Sample.header :: noise (List.range count)))
    (enough : 2 ≤ count) : IsReported name count (series.map Series.label) := by
  have status : (sampled name count).status = 0 := by rw [sampled_eq named small]
  obtain ⟨table, new, rfl, holds, run⟩ := analyze_noise h
  have unfailing : ({} : Sink).Unfailing := ⟨rfl, rfl⟩
  obtain ⟨summaries, summarized, fault, received, -⟩ :=
    holds.report_of_two_le enough unfailing ({} : Settings).z
  obtain ⟨outcome, written⟩ := run {}
  rw [fault] at outcome
  have delivered : (table.report ({} : Settings).z {}).sink.held = [] :=
    Report.held_ofColumns unfailing table.columns
  rw [Sink.received, delivered, List.append_nil, Summary.flatMap_line] at received
  have labels : ∀ label ∈ table.labels, '\n' ∉ label.toList := by
    rw [holds.labels_eq]
    decide
  rcases analyze_pipe (sampled name new.length).stdout with ⟨table', -, status', stderr, stdout⟩ |
    ⟨fault', failed, -⟩
  · refine ⟨status, status', stderr, table, summaries, outcome, summarized, ?_, ?_,
      summarized.unbroken labels⟩
    · rw [summarized.map_label, holds.labels_eq]
    · rw [analyzed, stdout, written, received]
      rfl
  · simp [outcome] at failed

theorem isReported_empty (small : count < countLimit) : IsReported "empty" count [] := by
  have nothing : sampled "empty" count = ⟨0, [], ""⟩ := @sampled_eq "empty" .empty count rfl small
  have silent : analyzed "empty" count = ⟨0, [], ""⟩ := by
    rw [analyzed, nothing]
    rfl
  refine ⟨by rw [nothing], by rw [silent], by rw [silent], .empty, [], ?_, .nil, rfl, ?_, by simp⟩
  · rw [nothing]
    rfl
  · rw [silent]
    rfl

/-- **What an analysis makes of each kind of sample**: a report, no output, or the fault that its
kind asks for. -/
theorem samples_are_analyzed (count : Nat) (small : count < countLimit) :
    (2 ≤ count →
      IsReported "valid" count ["solve_ms", "conflicts", "decisions", "restarts"]) ∧
    (count < 2 → IsRefused "valid" count (.tooFew "solve_ms" count)) ∧
    IsRefused "header-only" count (.tooFew "solve_ms" 0) ∧
    IsRefused "single-row" count (.tooFew "solve_ms" 1) ∧
    IsReported "empty" count [] ∧
    IsRefused "non-numeric" count (.notNumber (max count 3 / 2 + 2) "restarts" "n/a") ∧
    IsRefused "short-row" count (.width (max count 3 / 2 + 2) 4 3) ∧
    IsRefused "blank-line" count (.notNumber (count + 2) "solve_ms" "") := by
  have positive : 0 < max count 3 := by omega
  have first : ∀ text ∈ ["solve_ms"], Every IsAscii text := by decide
  have last : ∀ text ∈ ["restarts", "n/a"], Every IsAscii text := by decide
  have blank : ∀ text ∈ ["solve_ms", ""], Every IsAscii text := by decide
  have valid := @isRecords_of_unbroken "valid" .valid count rfl small (by decide) (by decide)
    fun _ => rfl
  have headerOnly := @isRecords_of_unbroken "header-only" .headerOnly count rfl small (by decide)
    (by decide) fun _ => rfl
  have singleRow := @isRecords_of_unbroken "single-row" .singleRow count rfl small (by decide)
    (by decide) fun _ => rfl
  obtain ⟨_, nonNumeric⟩ := @exists_isRecords_of_broken "non-numeric" .nonNumeric count rfl small
    (by decide) (by decide) positive
  obtain ⟨_, shortRow⟩ := @exists_isRecords_of_broken "short-row" .shortRow count rfl small
    (by decide) (by decide) positive
  have blankLine := @isRecords_sampled "blank-line" .blankLine count rfl small (by decide)
  rw [lineFields_of_unbroken (fun _ => rfl), if_pos rfl] at blankLine
  refine ⟨fun enough => ?_, fun few => ?_, ?_, ?_, ?_, ?_, ?_, ?_⟩
  · exact isReported_of_noise rfl small valid enough
  · exact isRefused_of_outcome rfl small (outcome_of_few valid few) first
  · exact isRefused_of_outcome rfl small (outcome_of_few headerOnly (by decide)) first
  · exact isRefused_of_outcome rfl small (outcome_of_few singleRow (by decide)) first
  · exact isReported_empty small
  · exact isRefused_of_outcome rfl small (outcome_of_nonNumeric nonNumeric) last
  · exact isRefused_of_outcome rfl small (outcome_of_shortRow shortRow) (by simp [Fault.quoted])
  · exact isRefused_of_outcome rfl small (outcome_of_blankLine blankLine) blank

/-- The least and the greatest row count. -/
theorem extreme_samples_are_analyzed : 0 < countLimit ∧ countLimit - 1 < countLimit ∧
    IsRefused "valid" 0 (.tooFew "solve_ms" 0) ∧
    IsRefused "short-row" 0 (.width 3 4 3) ∧
    IsRefused "short-row" (countLimit - 1) (.width (countLimit / 2 + 1) 4 3) ∧
    IsReported "valid" (countLimit - 1) ["solve_ms", "conflicts", "decisions", "restarts"] := by
  have least : 0 < countLimit := by decide
  have greatest : countLimit - 1 < countLimit := by decide
  obtain ⟨-, few, -, -, -, -, short, -⟩ := samples_are_analyzed 0 least
  obtain ⟨valid, -, -, -, -, -, short', -⟩ := samples_are_analyzed (countLimit - 1) greatest
  exact ⟨least, greatest, few (by decide), short, short', valid (by decide)⟩

end Command

end ColumnStats
