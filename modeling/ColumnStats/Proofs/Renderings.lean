import ColumnStats.Proofs.Acceptance

/-!
# Renderings of a table

A table can be laid out in bytes in many ways: with blanks around its fields, with either line end,
and without one after the last line.

* `IsRendering`: such a layout; `plain`: the one without blanks, with a line feed after each line;
* `IsPaddedLine.fields_eq`: the fields of a line do not depend on the blanks around them;
* `IsRendering.isRecords`: **all renderings have the same records**;
* `analyze_eq_of_isRecords`: **a run depends on the records only**;
* `layout_is_immaterial`: all renderings lead to the same run.
-/

namespace ColumnStats

open Text

/-! ## Layouts -/

/-- There are fields, and none of them has the delimiter or a line feed. -/
structure IsRenderable (delimiter : Char) (record : List (List Char)) : Prop where
  nonempty : record ≠ []
  free : ∀ field ∈ record, delimiter ∉ field ∧ '\n' ∉ field

/-- The field with blanks around it, none of them the delimiter or a line feed. -/
def IsPadded (delimiter : Char) (field padded : List Char) : Prop :=
  ∃ before after, padded = before ++ field ++ after ∧
    ∀ c ∈ before ++ after, isBlank c ∧ c ≠ delimiter ∧ c ≠ '\n'

/-- The fields with blanks around them, parted by the delimiter. -/
def IsPaddedLine (delimiter : Char) (record : List (List Char)) (line : List Char) : Prop :=
  ∃ padded, List.Forall₂ (IsPadded delimiter) record padded ∧ line = [delimiter].intercalate padded

/-- The bytes of a table: a line for each record, each with a line feed after it or with a carriage
return and a line feed. The last line may go without unless it is empty. -/
inductive IsRendering (delimiter : Char) : List (List (List Char)) → List UInt8 → Prop
  | nil : IsRendering delimiter [] []
  | unended {record : List (List Char)} {line : List Char}
    (padded : IsPaddedLine delimiter record line) (nonempty : line ≠ []) :
    IsRendering delimiter [record] (encodeChars line)
  | feed {record : List (List Char)} {line : List Char} {records : List (List (List Char))}
    {bytes : List UInt8} (padded : IsPaddedLine delimiter record line)
    (rest : IsRendering delimiter records bytes) :
    IsRendering delimiter (record :: records) (encodeChars line ++ lineFeed :: bytes)
  | returnFeed {record : List (List Char)} {line : List Char} {records : List (List (List Char))}
    {bytes : List UInt8} (padded : IsPaddedLine delimiter record line)
    (rest : IsRendering delimiter records bytes) :
    IsRendering delimiter (record :: records)
      (encodeChars line ++ carriageReturn :: lineFeed :: bytes)

/-- The fields as they are, parted by the delimiter, with a line feed after each line. -/
def plain (delimiter : Char) (records : List (List (List Char))) : List UInt8 :=
  records.flatMap fun record => encodeChars ([delimiter].intercalate record) ++ [lineFeed]

variable {delimiter : Char} {record : List (List Char)} {line : List Char}

theorem isPadded_refl (field : List Char) : IsPadded delimiter field field :=
  ⟨[], [], by simp, by simp⟩

theorem isRendering_plain (delimiter : Char) (records : List (List (List Char))) :
    IsRendering delimiter records (plain delimiter records) := by
  induction records with
  | nil => exact .nil
  | cons record records ih =>
    have line : IsPaddedLine delimiter record ([delimiter].intercalate record) :=
      ⟨record, List.forall₂_same.2 fun field _ => isPadded_refl field, rfl⟩
    have bytes := IsRendering.feed line ih
    rwa [plain, List.flatMap_cons, List.append_assoc]

theorem plain_append (delimiter : Char) (records records' : List (List (List Char))) :
    plain delimiter (records ++ records') = plain delimiter records ++ plain delimiter records' :=
  List.flatMap_append

/-! ## Fields of a padded line -/

theorem IsPadded.trim_eq {field padded : List Char} (h : IsPadded delimiter field padded) :
    trim padded = trim field := by
  obtain ⟨before, after, rfl, blank⟩ := h
  rw [trim_append_right fun c hc => (blank c (List.mem_append_right _ hc)).1,
    trim_append_left fun c hc => (blank c (List.mem_append_left _ hc)).1]

theorem notMem_of_margins {before after field : List Char} {c : Char} (h : c ∉ field)
    (margins : ∀ b ∈ before ++ after, b ≠ c) : c ∉ before ++ field ++ after := by
  simp only [List.mem_append, not_or]
  exact ⟨⟨fun hb => margins c (List.mem_append_left _ hb) rfl, h⟩,
    fun ha => margins c (List.mem_append_right _ ha) rfl⟩

theorem IsPadded.free {field padded : List Char} (h : IsPadded delimiter field padded)
    (free : delimiter ∉ field ∧ '\n' ∉ field) : delimiter ∉ padded ∧ '\n' ∉ padded := by
  obtain ⟨before, after, rfl, blank⟩ := h
  exact ⟨notMem_of_margins free.1 fun c hc => (blank c hc).2.1,
    notMem_of_margins free.2 fun c hc => (blank c hc).2.2⟩

theorem map_trim_of_isPadded {padded : List (List Char)}
    (pads : List.Forall₂ (IsPadded delimiter) record padded) :
    padded.map trim = record.map trim := by
  induction pads with
  | nil => rfl
  | cons first _ ih => rw [List.map_cons, List.map_cons, first.trim_eq, ih]

theorem free_of_isPadded {padded : List (List Char)}
    (pads : List.Forall₂ (IsPadded delimiter) record padded)
    (free : ∀ field ∈ record, delimiter ∉ field ∧ '\n' ∉ field) :
    ∀ piece ∈ padded, delimiter ∉ piece ∧ '\n' ∉ piece := by
  induction pads with
  | nil => exact free
  | cons first _ ih =>
    rw [List.forall_mem_cons] at free ⊢
    exact ⟨first.free free.1, ih free.2⟩

theorem IsPaddedLine.fields_eq (h : IsPaddedLine delimiter record line)
    (renderable : IsRenderable delimiter record) :
    fields delimiter (String.ofList line) = record.map trim := by
  obtain ⟨padded, pads, rfl⟩ := h
  have nonempty : padded ≠ [] := by
    rintro rfl
    exact renderable.nonempty (List.forall₂_nil_right_iff.1 pads)
  have free := free_of_isPadded pads renderable.free
  rw [fields_intercalate nonempty fun piece hp => (free piece hp).1, map_trim_of_isPadded pads]

theorem eq_or_mem_of_mem_intercalate {pieces : List (List Char)} {c : Char}
    (h : c ∈ [delimiter].intercalate pieces) : c = delimiter ∨ ∃ piece ∈ pieces, c ∈ piece := by
  induction pieces with
  | nil => simp at h
  | cons piece pieces ih =>
    cases pieces with
    | nil => exact Or.inr ⟨piece, List.mem_cons_self, by simpa using h⟩
    | cons next pieces =>
      rw [List.intercalate_cons_cons, List.mem_append, List.mem_append, List.mem_singleton] at h
      rcases h with (h | rfl) | h
      · exact Or.inr ⟨piece, List.mem_cons_self, h⟩
      · exact Or.inl rfl
      · exact (ih h).imp_right fun ⟨p, hp, hc⟩ => ⟨p, List.mem_cons_of_mem _ hp, hc⟩

theorem IsPaddedLine.newline_notMem (h : IsPaddedLine delimiter record line)
    (renderable : IsRenderable delimiter record) (hd : delimiter ≠ '\n') : '\n' ∉ line := by
  obtain ⟨padded, pads, rfl⟩ := h
  intro mem
  rcases eq_or_mem_of_mem_intercalate mem with e | ⟨piece, hp, hc⟩
  · exact hd e.symm
  · exact (free_of_isPadded pads renderable.free piece hp).2 hc

/-! ## Lines of a rendering -/

theorem ofUInt8_ne {byte byte' : UInt8} (h : byte ≠ byte') :
    Char.ofUInt8 byte ≠ Char.ofUInt8 byte' := by
  intro e
  have same := congrArg Char.toNat e
  exact h (UInt8.toNat_inj.1 same)

theorem lineFeed_notMem_encodeChars (h : '\n' ∉ line) : lineFeed ∉ encodeChars line := by
  rwa [mem_encodeChars_iff (c := '\n') rfl (by decide)]

/-- A blank at the end of a line, other than the delimiter, changes no field. -/
theorem fields_concat {c : Char} (blank : isBlank c) (hc : c ≠ delimiter) (line : List Char) :
    fields delimiter (String.ofList (line ++ [c])) = fields delimiter (String.ofList line) := by
  simp only [fields, String.toList_ofList]
  induction h : line.length using Nat.strongRecOn generalizing line with
  | _ n ih =>
  by_cases hd : delimiter ∈ line
  · obtain ⟨first, rest, rfl, free⟩ := List.eq_append_cons_of_mem hd
    rw [List.append_assoc, List.cons_append, List.splitOn_append_cons_self_of_not_mem free,
      List.splitOn_append_cons_self_of_not_mem free, List.map_cons, List.map_cons,
      ih rest.length (by simp [← h]; omega) rest rfl]
  · have hd' : delimiter ∉ line ++ [c] := by simp [hd, Ne.symm hc]
    have margin : ∀ x ∈ [c], isBlank x := by simpa using blank
    rw [List.splitOn_eq_singleton hd, List.splitOn_eq_singleton hd', List.map_singleton,
      List.map_singleton, trim_append_right margin]

theorem exists_dropReturn_eq (hd : delimiter ≠ '\r') (line : List Char) : ∃ text : String,
    dropReturn (encodeChars line) = encode text ∧
      fields delimiter text = fields delimiter (String.ofList line) := by
  by_cases last : (encodeChars line).getLast? = some carriageReturn
  · obtain ⟨bytes, e⟩ := List.getLast?_eq_some_iff.1 last
    obtain ⟨text, c, text', rfl, rfl, hc, hn⟩ := encodeChars_eq_append_cons (by decide) e
    obtain rfl : c = '\r' := Char.toNat_inj.1 hc
    obtain rfl : text' = [] := encodeChars_eq_nil_iff.1 hn
    refine ⟨String.ofList text, ?_, (fields_concat (by decide) hd.symm text).symm⟩
    rw [dropReturn, if_pos last, e, List.dropLast_concat, encode_ofList]
  · exact ⟨String.ofList line, by rw [dropReturn, if_neg last, encode_ofList], rfl⟩

theorem IsRecords.cons {bytes first : List UInt8} {records : List (List (List Char))} {text : String}
    (h : IsRecords delimiter bytes records) (unbroken : lineFeed ∉ first)
    (e : dropReturn first = encode text) :
    IsRecords delimiter (first ++ lineFeed :: bytes) (fields delimiter text :: records) := by
  obtain ⟨texts, lines, rfl⟩ := isRecords_iff.1 h
  exact isRecords_iff.2 ⟨text :: texts, by rw [lineBytes_append_lineFeed unbroken, e, lines]; rfl, rfl⟩

theorem IsRendering.isRecords {records : List (List (List Char))} {bytes : List UInt8}
    (h : IsRendering delimiter records bytes)
    (renderable : ∀ record ∈ records, IsRenderable delimiter record)
    (feed : delimiter ≠ '\n') (carriage : delimiter ≠ '\r') :
    IsRecords delimiter bytes (records.map (List.map trim)) := by
  induction h with
  | nil => exact isRecords_iff.2 ⟨[], by simp, rfl⟩
  | @unended record line padded nonempty =>
    have hr := renderable record List.mem_cons_self
    have unbroken := lineFeed_notMem_encodeChars (padded.newline_notMem hr feed)
    have bytes : encodeChars line ≠ [] := mt encodeChars_eq_nil_iff.1 nonempty
    refine isRecords_iff.2 ⟨[String.ofList line], ?_, ?_⟩
    · rw [lineBytes_of_unbroken bytes unbroken, List.map_singleton, encode_ofList]
    · rw [List.map_singleton, List.map_singleton, padded.fields_eq hr]
  | @feed record line records bytes padded _ ih =>
    obtain ⟨hr, rest⟩ := List.forall_mem_cons.1 renderable
    have unbroken := lineFeed_notMem_encodeChars (padded.newline_notMem hr feed)
    obtain ⟨text, e, same⟩ := exists_dropReturn_eq carriage line
    have records := (ih rest).cons unbroken e
    rwa [same, padded.fields_eq hr] at records
  | @returnFeed record line records bytes padded _ ih =>
    obtain ⟨hr, rest⟩ := List.forall_mem_cons.1 renderable
    have unbroken := lineFeed_notMem_concat
      (lineFeed_notMem_encodeChars (padded.newline_notMem hr feed))
      (by decide : carriageReturn ≠ lineFeed)
    have e : dropReturn (encodeChars line ++ [carriageReturn]) = encode (String.ofList line) := by
      rw [dropReturn_concat, encode_ofList]
    have records := (ih rest).cons unbroken e
    rwa [padded.fields_eq hr, List.append_assoc] at records

/-! ## Runs -/

namespace Collector

theorem readRow_congr (collector : Collector) {line line' : String}
    (h : fields collector.delimiter line = fields collector.delimiter line') :
    collector.readRow line = collector.readRow line' := by
  rw [readRow, readRow, h]

theorem addLines_congr (collector : Collector) {texts texts' : List String}
    (h : texts.map (fields collector.delimiter) = texts'.map (fields collector.delimiter)) :
    collector.addLines (texts.map .ok) = collector.addLines (texts'.map .ok) := by
  induction texts generalizing collector texts' with
  | nil => rw [List.map_eq_nil_iff.1 h.symm]
  | cons text texts ih =>
    obtain ⟨text', texts', rfl, first, rest⟩ := List.map_eq_cons_iff.1 h.symm
    rw [List.map_cons, List.map_cons, addLines, addLines, collector.readRow_congr first]
    split
    · rfl
    · next row _ => exact ih (collector.addRow row) rest.symm

end Collector

/-- **A run depends on the records only.** -/
theorem analyze_eq_of_isRecords {settings : Settings} {bytes bytes' : List UInt8}
    {records : List (List (List Char))}
    (h : IsRecords (Char.ofUInt8 settings.delimiter) bytes records)
    (h' : IsRecords (Char.ofUInt8 settings.delimiter) bytes' records) (sink : Sink) :
    analyze settings ⟨bytes, none⟩ sink = analyze settings ⟨bytes', none⟩ sink := by
  obtain ⟨texts, lines, rfl⟩ := isRecords_iff.1 h
  obtain ⟨texts', lines', same⟩ := isRecords_iff.1 h'
  have read : (⟨bytes, none⟩ : Source).lines = texts.map .ok := map_readLine_eq_map_ok_iff.2 lines
  have read' : (⟨bytes', none⟩ : Source).lines = texts'.map .ok :=
    map_readLine_eq_map_ok_iff.2 lines'
  rw [analyze, analyze, read, read']
  cases texts with
  | nil => rw [List.map_eq_nil_iff.1 same.symm]
  | cons header texts =>
    obtain ⟨header', texts', rfl, first, rest⟩ := List.map_eq_cons_iff.1 same.symm
    have start : Collector.ofHeader settings.delimiter header =
        Collector.ofHeader settings.delimiter header' := by
      rw [Collector.ofHeader, Collector.ofHeader, first]
    have rows := (Collector.ofHeader settings.delimiter header').addLines_congr rest
    simp only [List.map_cons, start, rows]

/-- **All renderings of a table lead to the same run**: blanks around fields, the kind of line ends
and the end of the last line change neither table nor fault, and no byte of the output. -/
theorem layout_is_immaterial (settings : Settings) (feed : settings.delimiter ≠ lineFeed)
    (carriage : settings.delimiter ≠ carriageReturn) {records : List (List (List Char))}
    (renderable : ∀ record ∈ records, IsRenderable (Char.ofUInt8 settings.delimiter) record)
    {bytes : List UInt8} (rendering : IsRendering (Char.ofUInt8 settings.delimiter) records bytes)
    (sink : Sink) : analyze settings ⟨bytes, none⟩ sink =
      analyze settings ⟨plain (Char.ofUInt8 settings.delimiter) records, none⟩ sink := by
  have feed' : Char.ofUInt8 settings.delimiter ≠ '\n' := ofUInt8_ne feed
  have carriage' : Char.ofUInt8 settings.delimiter ≠ '\r' := ofUInt8_ne carriage
  exact analyze_eq_of_isRecords (rendering.isRecords renderable feed' carriage')
    ((isRendering_plain _ records).isRecords renderable feed' carriage') sink

theorem tabbed_layouts_lead_to_the_same_run : (9 : UInt8) ≠ lineFeed ∧ (9 : UInt8) ≠ carriageReturn ∧
    (∀ record ∈ [[['a'], ['b']], [['1'], ['2']], [['3'], ['4']]], IsRenderable '\t' record) ∧
    IsRendering '\t' [[['a'], ['b']], [['1'], ['2']], [['3'], ['4']]]
      (encode " a\tb\r\n1\t\u00a02\n3\r\t4") ∧
    analyze { delimiter := 9 } ⟨encode " a\tb\r\n1\t\u00a02\n3\r\t4", none⟩ {} =
      analyze { delimiter := 9 } ⟨encode "a\tb\n1\t2\n3\t4\n", none⟩ {} := by
  have renderable : ∀ record ∈ [[['a'], ['b']], [['1'], ['2']], [['3'], ['4']]],
      IsRenderable '\t' record := by
    simp only [List.forall_mem_cons]
    exact ⟨⟨by decide, by decide⟩, ⟨by decide, by decide⟩, ⟨by decide, by decide⟩, by simp⟩
  have header : IsPaddedLine '\t' [['a'], ['b']] [' ', 'a', '\t', 'b'] :=
    ⟨[[' ', 'a'], ['b']], .cons ⟨[' '], [], rfl, List.forall_mem_singleton.2 (by decide)⟩
      (.cons (isPadded_refl _) .nil), rfl⟩
  have first : IsPaddedLine '\t' [['1'], ['2']] ['1', '\t', '\u00a0', '2'] :=
    ⟨[['1'], ['\u00a0', '2']], .cons (isPadded_refl _)
      (.cons ⟨['\u00a0'], [], rfl, List.forall_mem_singleton.2 (by decide)⟩ .nil), rfl⟩
  have last : IsPaddedLine '\t' [['3'], ['4']] ['3', '\r', '\t', '4'] :=
    ⟨[['3', '\r'], ['4']], .cons ⟨[], ['\r'], rfl, List.forall_mem_singleton.2 (by decide)⟩
      (.cons (isPadded_refl _) .nil), rfl⟩
  have rendering : IsRendering '\t' [[['a'], ['b']], [['1'], ['2']], [['3'], ['4']]]
      (encode " a\tb\r\n1\t\u00a02\n3\r\t4") :=
    .returnFeed header (.feed first (.unended last (by decide)))
  have bytes : plain '\t' [[['a'], ['b']], [['1'], ['2']], [['3'], ['4']]] =
      encode "a\tb\n1\t2\n3\t4\n" := by decide
  rw [← bytes]
  exact ⟨by decide, by decide, renderable, rendering,
    layout_is_immaterial { delimiter := 9 } (by decide) (by decide) renderable rendering {}⟩

end ColumnStats
