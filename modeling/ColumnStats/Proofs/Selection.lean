import ColumnStats.Proofs.Output
import ColumnStats.Proofs.Renderings

/-!
# Selections of columns

Columns can be dropped, repeated and put in another order before an analysis or after it.

* `pick`: the items at some positions; `IsSelection`: the input with the fields at some positions;
* `Table.Holds.select`: **the picked columns hold the picked rows**;
* `IsSelection.isRecords`: the records of a selection are the picked records;
* `columns_are_independent`: **the analysis of a selection is the selection of the analysis**.
-/

namespace ColumnStats

open Text

/-! ## Items at positions -/

section Pick

variable {α β : Type}

/-- The items at the positions, in the order of the positions. -/
def pick (positions : List Nat) (items : List α) : List α := positions.filterMap (items[·]?)

variable {positions : List Nat} {items : List α}

theorem pick_cons {position : Nat} (h : position < items.length) :
    pick (position :: positions) items = items[position] :: pick positions items := by
  rw [pick, List.filterMap_cons, List.getElem?_eq_getElem h, pick]

theorem pick_map (f : α → β) (positions : List Nat) (items : List α) :
    pick positions (items.map f) = (pick positions items).map f := by
  simp only [pick, List.map_filterMap, List.getElem?_map]

theorem mem_of_mem_pick {item : α} (h : item ∈ pick positions items) : item ∈ items := by
  obtain ⟨position, -, e⟩ := List.mem_filterMap.1 h
  exact List.mem_of_getElem? e

theorem getElem?_pick (inside : ∀ position ∈ positions, position < items.length) (i : Nat) :
    (pick positions items)[i]? = positions[i]?.bind (items[·]?) := by
  induction positions generalizing i with
  | nil => rfl
  | cons position positions ih =>
    obtain ⟨first, rest⟩ := List.forall_mem_cons.1 inside
    rw [pick_cons first]
    cases i with
    | zero => simp [first]
    | succ i => rw [List.getElem?_cons_succ, List.getElem?_cons_succ, ih rest]

theorem length_pick (inside : ∀ position ∈ positions, position < items.length) :
    (pick positions items).length = positions.length := by
  induction positions with
  | nil => rfl
  | cons position positions ih =>
    obtain ⟨first, rest⟩ := List.forall_mem_cons.1 inside
    rw [pick_cons first, List.length_cons, List.length_cons, ih rest]

theorem forall₂_pick {related : α → β → Prop} {items' : List β}
    (h : List.Forall₂ related items items') (positions : List Nat) :
    List.Forall₂ related (pick positions items) (pick positions items') := by
  induction positions with
  | nil => exact .nil
  | cons position positions ih =>
    by_cases inside : position < items.length
    · have inside' : position < items'.length := h.length_eq ▸ inside
      rw [pick_cons inside, pick_cons inside']
      exact .cons (h.get inside inside') ih
    · have outside : items[position]? = none := List.getElem?_eq_none (Nat.le_of_not_lt inside)
      have outside' : items'[position]? = none :=
        List.getElem?_eq_none (h.length_eq ▸ Nat.le_of_not_lt inside)
      rw [pick, pick, List.filterMap_cons, List.filterMap_cons, outside, outside']
      exact ih

end Pick

/-! ## Columns of a table -/

namespace Table

variable {table table' : Table} {labels : List String} {rows : List (List Binary64)}
  {positions : List Nat}

/-- The table with the columns at the positions. -/
def select (positions : List Nat) (table : Table) : Table where
  columns := pick positions table.columns
  rowCount := table.rowCount

theorem Holds.unique (h : table.Holds labels rows) (h' : table'.Holds labels rows) :
    table = table' := by
  have columns : table.columns = table'.columns := by
    have lengths : table.columns.length = table'.columns.length := h.width_eq.trans h'.width_eq.symm
    refine List.ext_getElem lengths fun j hj hj' => ?_
    have label := congrArg (·[j]?) (h.labels_eq.trans h'.labels_eq.symm)
    simp only [Table.labels, List.getElem?_map, List.getElem?_eq_getElem hj,
      List.getElem?_eq_getElem hj', Option.map_some, Option.some_inj] at label
    have size := h.size_eq _ (List.getElem_mem hj)
    have size' := h'.size_eq _ (List.getElem_mem hj')
    have values : table.columns[j].values = table'.columns[j].values := by
      refine Array.ext (size.trans size'.symm) fun i hi hi' => ?_
      have hr : i < rows.length := size ▸ hi
      have value := h.value_eq i j _ _ (List.getElem?_eq_getElem hr) (List.getElem?_eq_getElem hj)
      have value' := h'.value_eq i j _ _ (List.getElem?_eq_getElem hr)
        (List.getElem?_eq_getElem hj')
      rw [← value', Array.getElem?_eq_getElem hi, Array.getElem?_eq_getElem hi'] at value
      exact Option.some_inj.1 value
    cases hc : table.columns[j]
    cases hc' : table'.columns[j]
    simp_all
  have count := h.rowCount_eq.trans h'.rowCount_eq.symm
  cases table
  cases table'
  simp_all

/-- **The picked columns hold the picked rows.** -/
theorem Holds.select (h : table.Holds labels rows)
    (inside : ∀ position ∈ positions, position < labels.length)
    (wide : ∀ row ∈ rows, row.length = labels.length) :
    (table.select positions).Holds (pick positions labels) (rows.map (pick positions)) where
  labels_eq := by
    rw [← h.labels_eq, Table.labels, Table.labels, pick_map]
    rfl
  rowCount_eq := by
    rw [List.length_map, ← h.rowCount_eq]
    rfl
  size_eq := by
    intro column mem
    rw [List.length_map, h.size_eq column (mem_of_mem_pick mem)]
  value_eq := by
    intro i j picked column hi hj
    rw [List.getElem?_map, Option.map_eq_some_iff] at hi
    obtain ⟨row, hi, rfl⟩ := hi
    have width : table.columns.length = labels.length := h.width_eq
    change (pick positions table.columns)[j]? = some column at hj
    rw [getElem?_pick (by rwa [width]), Option.bind_eq_some_iff] at hj
    obtain ⟨position, hp, hj⟩ := hj
    rw [getElem?_pick (by rwa [wide row (List.mem_of_getElem? hi)]), hp, Option.bind_some]
    exact h.value_eq i position row column hi hj

end Table

/-! ## Fields of lines -/

/-- The pieces between the delimiters of a line. -/
def IsCut (delimiter : Char) (line : String) (pieces : List (List Char)) : Prop :=
  pieces ≠ [] ∧ (∀ piece ∈ pieces, delimiter ∉ piece) ∧
    [delimiter].intercalate pieces = line.toList

/-- Of every line, the pieces at the positions are kept, and a line feed ends it. -/
def IsSelection (delimiter : Char) (positions : List Nat) (bytes selected : List UInt8) : Prop :=
  ∃ (texts : List String) (pieces : List (List (List Char))),
    IsLines bytes (texts.map encode) ∧ List.Forall₂ (IsCut delimiter) texts pieces ∧
      selected = plain delimiter (pieces.map (pick positions))

theorem isCut_iff {delimiter : Char} {line : String} {pieces : List (List Char)} :
    IsCut delimiter line pieces ↔ pieces = line.toList.splitOn delimiter := by
  constructor
  · rintro ⟨nonempty, free, joined⟩
    rw [← joined, List.splitOn_intercalate delimiter free nonempty]
  · rintro rfl
    exact ⟨List.splitOn_ne_nil _ _, fun _ => not_mem_of_mem_splitOn,
      List.intercalate_splitOn delimiter⟩

variable {delimiter : Char} {positions : List Nat} {bytes selected : List UInt8}

theorem isSelection_iff {texts : List String} (lines : lineBytes bytes = texts.map encode) :
    IsSelection delimiter positions bytes selected ↔ selected =
      plain delimiter (texts.map fun text => pick positions (text.toList.splitOn delimiter)) := by
  constructor
  · rintro ⟨texts', pieces, layout, cuts, rfl⟩
    have same := isLines_iff.1 layout
    rw [lines] at same
    obtain rfl := List.map_injective_iff.2 (fun _ _ => encode_injective) same
    rw [(forall₂_iff_eq_map (@isCut_iff delimiter)).1 cuts, List.map_map]
    rfl
  · rintro rfl
    exact ⟨texts, texts.map fun text => text.toList.splitOn delimiter, isLines_iff.2 lines.symm,
      (forall₂_iff_eq_map (@isCut_iff delimiter)).2 rfl, by rw [List.map_map]; rfl⟩

theorem isRenderable_pick {text : String} (unbroken : '\n' ∉ text.toList) (chosen : positions ≠ [])
    (inside : ∀ position ∈ positions, position < (fields delimiter text).length) :
    IsRenderable delimiter (pick positions (text.toList.splitOn delimiter)) where
  nonempty := by
    rw [fields, List.length_map] at inside
    rw [← List.length_pos_iff, length_pick inside]
    exact List.length_pos_iff.2 chosen
  free := by
    intro piece hp
    have mem := mem_of_mem_pick hp
    exact ⟨not_mem_of_mem_splitOn mem, fun h => unbroken (subset_of_mem_splitOn mem h)⟩

theorem IsSelection.isRecords (h : IsSelection delimiter positions bytes selected)
    (feed : delimiter ≠ '\n') (carriage : delimiter ≠ '\r') {texts : List String}
    (lines : lineBytes bytes = texts.map encode) (chosen : positions ≠ [])
    (inside : ∀ text ∈ texts, ∀ position ∈ positions, position < (fields delimiter text).length) :
    IsRecords delimiter selected (texts.map fun text => pick positions (fields delimiter text)) := by
  obtain rfl := (isSelection_iff lines).1 h
  have renderable : ∀ text ∈ texts,
      IsRenderable delimiter (pick positions (text.toList.splitOn delimiter)) := by
    intro text ht
    have unbroken := (isLines_lineBytes bytes).unbroken (encode text)
      (by rw [lines]; exact List.mem_map_of_mem ht)
    rw [lineFeed_mem_encode_iff] at unbroken
    exact isRenderable_pick unbroken chosen (inside text ht)
  have records := (isRendering_plain delimiter _).isRecords (List.forall_mem_map.2 renderable)
    feed carriage
  rw [List.map_map] at records
  simpa only [Function.comp_def, ← pick_map, fields] using records

/-! ## Rows of a selection -/

theorem length_eq_of_isRow {width : Nat} {texts : List String} {rows : List (List Binary64)}
    (are : List.Forall₂ (Collector.IsRow delimiter width) texts rows) :
    ∀ row ∈ rows, row.length = width := by
  induction are with
  | nil => simp
  | cons first _ ih => exact List.forall_mem_cons.2 ⟨first.2, ih⟩

theorem eq_map_pick {width width' : Nat} {texts texts' : List String}
    {rows rows' : List (List Binary64)}
    (are : List.Forall₂ (Collector.IsRow delimiter width) texts rows)
    (are' : List.Forall₂ (Collector.IsRow delimiter width') texts' rows')
    (same : texts'.map (fields delimiter) =
      texts.map fun text => pick positions (fields delimiter text)) :
    rows' = rows.map (pick positions) := by
  induction are generalizing texts' rows' with
  | nil =>
    obtain rfl := List.map_eq_nil_iff.1 same
    rw [List.forall₂_nil_left_iff.1 are', List.map_nil]
  | @cons text row texts rows first _ ih =>
    obtain ⟨text', texts', rfl, e, rest⟩ := List.map_eq_cons_iff.1 same
    obtain ⟨row', rows', first', others, rfl⟩ := List.forall₂_cons_left_iff.1 are'
    have reads : ReadsAs (fields delimiter text') row' := first'.1
    rw [e] at reads
    rw [ReadsAs.unique reads (forall₂_pick first.1 positions), ih others rest, List.map_cons]

/-! ## Summaries of a selection -/

theorem Table.Summarized.select {table : Table} {z : Binary64} {summaries : List Summary}
    (h : table.Summarized z summaries) (positions : List Nat) :
    (table.select positions).Summarized z (pick positions summaries) :=
  forall₂_pick h positions

/-! ## Runs of a selection -/

/-- A selection of accepted rows is accepted. The table and the lines of the report are the picked
ones. -/
theorem IsSelection.outcome_eq {settings : Settings} {sink : Sink} {table : Table} {header : String}
    {texts : List String} {rows : List (List Binary64)}
    (h : IsSelection (Char.ofUInt8 settings.delimiter) positions bytes selected)
    (feed : settings.delimiter ≠ lineFeed) (carriage : settings.delimiter ≠ carriageReturn)
    (unfailing : sink.Unfailing) (lines : lineBytes bytes = (header :: texts).map encode)
    (are : List.Forall₂ (Collector.IsRow (Char.ofUInt8 settings.delimiter)
      (fields (Char.ofUInt8 settings.delimiter) header).length) texts rows)
    (holds : table.Holds ((fields (Char.ofUInt8 settings.delimiter) header).map String.ofList) rows)
    (enough : 2 ≤ rows.length) (chosen : positions ≠ [])
    (inside : ∀ position ∈ positions, position < table.width) {summaries : List Summary}
    (summarized : table.Summarized settings.z summaries) :
    (analyze settings ⟨selected, none⟩ sink).outcome = .ok (table.select positions) ∧
      (analyze settings ⟨selected, none⟩ sink).sink.received =
        sink.received ++ (pick positions summaries).flatMap Summary.line := by
  have wide := Collector.forall_mem_of_isRow are
  rw [holds.width_eq, List.length_map] at inside
  have inside' : ∀ text ∈ texts, ∀ position ∈ positions,
      position < (fields (Char.ofUInt8 settings.delimiter) text).length := by
    intro text ht
    rwa [(wide text ht).1]
  obtain ⟨texts', lines', same⟩ := isRecords_iff.1 (h.isRecords (ofUInt8_ne feed)
    (ofUInt8_ne carriage) lines chosen (List.forall_mem_cons.2 ⟨inside, inside'⟩))
  obtain ⟨header', texts', rfl, first, rest⟩ := List.map_eq_cons_iff.1 same.symm
  have wide' : ∀ text ∈ texts', (fields (Char.ofUInt8 settings.delimiter) text).length =
      (fields (Char.ofUInt8 settings.delimiter) header').length ∧
      ∀ field ∈ fields (Char.ofUInt8 settings.delimiter) text, Numeral.IsNumeral field := by
    intro text' ht'
    have mem : fields (Char.ofUInt8 settings.delimiter) text' ∈ texts'.map (fields _) :=
      List.mem_map_of_mem ht'
    rw [rest] at mem
    obtain ⟨text, ht, e⟩ := List.mem_map.1 mem
    rw [← e, first, length_pick (inside' text ht), length_pick inside]
    exact ⟨rfl, fun field hf => (wide text ht).2 field (mem_of_mem_pick hf)⟩
  have enough' : 2 ≤ texts'.length := by
    have length := congrArg List.length rest
    rw [List.length_map, List.length_map, are.length_eq] at length
    rwa [length]
  obtain ⟨table', rows', accepted, are', holds', written⟩ :=
    outcome_of_rows unfailing lines' wide' enough'
  rw [first, ← pick_map, eq_map_pick are are' rest] at holds'
  have width : ((fields (Char.ofUInt8 settings.delimiter) header).map String.ofList).length =
      (fields (Char.ofUInt8 settings.delimiter) header).length := List.length_map _
  have narrow := length_eq_of_isRow are
  rw [← width] at narrow inside
  obtain rfl := holds'.unique (holds.select inside narrow)
  have enough'' : 2 ≤ (rows.map (pick positions)).length := by rwa [List.length_map]
  obtain ⟨summaries', summarized', -, received, -⟩ :=
    holds'.report_of_two_le enough'' unfailing settings.z
  obtain rfl := summarized'.unique (summarized.select positions)
  exact ⟨accepted, by rw [written, received]⟩

/-- **The analysis of a selection is the selection of the analysis**: its columns, its row count and
the lines of its output. -/
theorem columns_are_independent (settings : Settings) (feed : settings.delimiter ≠ lineFeed)
    (carriage : settings.delimiter ≠ carriageReturn) {bytes : List UInt8} (nonempty : bytes ≠ [])
    {sink : Sink} (unfailing : sink.Unfailing) {table : Table}
    (accepted : (analyze settings ⟨bytes, none⟩ sink).outcome = .ok table) {positions : List Nat}
    (chosen : positions ≠ []) (inside : ∀ position ∈ positions, position < table.width) :
    (∃ selected, IsSelection (Char.ofUInt8 settings.delimiter) positions bytes selected) ∧
    ∃ lines : List (List UInt8), lines.length = table.width ∧ (∀ line ∈ lines, lineFeed ∉ line) ∧
      (analyze settings ⟨bytes, none⟩ sink).sink.received =
        sink.received ++ lines.flatMap (· ++ [lineFeed]) ∧
      ∀ selected, IsSelection (Char.ofUInt8 settings.delimiter) positions bytes selected →
        (analyze settings ⟨selected, none⟩ sink).outcome =
          .ok ⟨pick positions table.columns, table.rowCount⟩ ∧
        (analyze settings ⟨selected, none⟩ sink).sink.received =
          sink.received ++ (pick positions lines).flatMap (· ++ [lineFeed]) := by
  obtain ⟨header, texts, rows, texts_eq, are, holds, enough, written⟩ :=
    exists_rows_of_outcome unfailing accepted nonempty
  obtain ⟨summaries, summarized, -, received, -⟩ :=
    holds.report_of_two_le enough unfailing settings.z
  have mem : encode header ∈ lineBytes bytes := by
    rw [texts_eq]
    exact List.mem_cons_self
  have unbroken := summarized.unbroken (holds.newline_notMem mem)
  have line_eq (summaries : List Summary) : summaries.flatMap Summary.line =
      (summaries.map fun summary => encode summary.text).flatMap (· ++ [lineFeed]) := by
    rw [List.flatMap_map, Summary.flatMap_line]
  refine ⟨⟨_, (isSelection_iff texts_eq).2 rfl⟩, summaries.map fun summary => encode summary.text,
    ?_, List.forall_mem_map.2 unbroken, by rw [written, received, line_eq], ?_⟩
  · rw [List.length_map, ← List.Forall₂.length_eq summarized]
    rfl
  · intro selected selection
    obtain ⟨accepted', received'⟩ := selection.outcome_eq feed carriage unfailing texts_eq are holds
      enough chosen inside summarized
    exact ⟨accepted', by rw [received', line_eq, pick_map]⟩

theorem second_column_comes_twice : (44 : UInt8) ≠ lineFeed ∧ (44 : UInt8) ≠ carriageReturn ∧
    encode "a, b\r\n1,10\n3,30" ≠ [] ∧ ({} : Sink).Unfailing ∧
    (analyze {} ⟨encode "a, b\r\n1,10\n3,30", none⟩ {}).outcome =
      .ok ⟨[⟨"a", #[.ofNat 1, .ofNat 3]⟩, ⟨"b", #[.ofNat 10, .ofNat 30]⟩], 2⟩ ∧
    IsSelection ',' [1, 0, 1] (encode "a, b\r\n1,10\n3,30")
      (encode " b,a, b\n10,1,10\n30,3,30\n") ∧
    (analyze {} ⟨encode " b,a, b\n10,1,10\n30,3,30\n", none⟩ {}).outcome =
      .ok ⟨[⟨"b", #[.ofNat 10, .ofNat 30]⟩, ⟨"a", #[.ofNat 1, .ofNat 3]⟩,
        ⟨"b", #[.ofNat 10, .ofNat 30]⟩], 2⟩ := by
  have unfailing : ({} : Sink).Unfailing := ⟨rfl, rfl⟩
  have nonempty : encode "a, b\r\n1,10\n3,30" ≠ [] := by decide
  have accepted : (analyze {} ⟨encode "a, b\r\n1,10\n3,30", none⟩ {}).outcome =
      .ok ⟨[⟨"a", #[.ofNat 1, .ofNat 3]⟩, ⟨"b", #[.ofNat 10, .ofNat 30]⟩], 2⟩ := by decide +kernel
  have lines : lineBytes (encode "a, b\r\n1,10\n3,30") = ["a, b", "1,10", "3,30"].map encode := by
    decide
  have selection : IsSelection ',' [1, 0, 1] (encode "a, b\r\n1,10\n3,30")
      (encode " b,a, b\n10,1,10\n30,3,30\n") := (isSelection_iff lines).2 (by decide)
  have inside : ∀ position ∈ [1, 0, 1], position < 2 := by decide
  obtain ⟨-, _, -, -, -, selections⟩ := columns_are_independent {} (by decide) (by decide) nonempty
    unfailing accepted (List.cons_ne_nil _ _) inside
  exact ⟨by decide, by decide, nonempty, unfailing, accepted, selection,
    (selections _ selection).1⟩

end ColumnStats
