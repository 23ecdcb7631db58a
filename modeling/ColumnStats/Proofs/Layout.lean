import ColumnStats.Collector
import ColumnStats.Source
import ColumnStats.Proofs.Utf8
import Mathlib.Data.List.Forall2
import Mathlib.Data.List.TakeWhile

/-!
# The layout of a table in bytes

What lines, fields and labels are, apart from the functions that find them.

* `IsLines`: the lines of a byte string; `isLines_iff`: `lineBytes` finds them, and no others;
* `IsLines.isText_iff`: **a byte string is a text exactly when each of its lines is**;
* `take_count_lineBytes`: the lines that end among the first bytes;
* `take_lineBytes_append`: the first lines do not depend on what follows them;
* `IsTrimmed`, `IsRecord`: the fields of a line; `isRecord_iff`: `fields` finds them, and no others.
-/

namespace ColumnStats

open Text

/-! ## Lines -/

/-- The lines of a byte string. A line ends at a line feed, and one carriage return directly before
it belongs to the end; what follows the last line feed is a line unless it is empty. -/
inductive IsLines : List UInt8 → List (List UInt8) → Prop
  | nil : IsLines [] []
  | rest {line : List UInt8} (nonempty : line ≠ []) (unbroken : lineFeed ∉ line) :
    IsLines line [line]
  | feed {line bytes : List UInt8} {lines : List (List UInt8)} (unbroken : lineFeed ∉ line)
    (plain : line.getLast? ≠ some carriageReturn) (rest : IsLines bytes lines) :
    IsLines (line ++ lineFeed :: bytes) (line :: lines)
  | returnFeed {line bytes : List UInt8} {lines : List (List UInt8)} (unbroken : lineFeed ∉ line)
    (rest : IsLines bytes lines) :
    IsLines (line ++ carriageReturn :: lineFeed :: bytes) (line :: lines)

variable {bytes line : List UInt8} {lines : List (List UInt8)}

@[simp] theorem lineBytes_nil : lineBytes [] = [] := by decide

theorem lineFeed_notMem_concat {byte : UInt8} (unbroken : lineFeed ∉ line) (h : byte ≠ lineFeed) :
    lineFeed ∉ line ++ [byte] := by
  rw [List.mem_append, List.mem_singleton, not_or]
  exact ⟨unbroken, Ne.symm h⟩

theorem dropReturn_concat (line : List UInt8) : dropReturn (line ++ [carriageReturn]) = line := by
  rw [dropReturn, if_pos List.getLast?_concat, List.dropLast_concat]

theorem completeLines_of_unbroken (unbroken : lineFeed ∉ line) : completeLines line = [] := by
  simp [completeLines, List.splitOn_eq_singleton unbroken]

theorem lineBytes_of_unbroken (nonempty : line ≠ []) (unbroken : lineFeed ∉ line) :
    lineBytes line = [line] := by
  simp [lineBytes, lastPiece, completeLines, List.splitOn_eq_singleton unbroken, nonempty]

theorem completeLines_append_lineFeed (unbroken : lineFeed ∉ line) (bytes : List UInt8) :
    completeLines (line ++ lineFeed :: bytes) = dropReturn line :: completeLines bytes := by
  rw [completeLines, List.splitOn_append_cons_self_of_not_mem unbroken,
    List.dropLast_cons_of_ne_nil (List.splitOn_ne_nil _ _), List.map_cons, completeLines]

theorem lastPiece_append_lineFeed (unbroken : lineFeed ∉ line) (bytes : List UInt8) :
    lastPiece (line ++ lineFeed :: bytes) = lastPiece bytes := by
  obtain ⟨piece, rest, hs⟩ := List.exists_cons_of_ne_nil (List.splitOn_ne_nil lineFeed bytes)
  rw [lastPiece, List.splitOn_append_cons_self_of_not_mem unbroken, lastPiece, hs]
  rfl

theorem lineBytes_append_lineFeed (unbroken : lineFeed ∉ line) (bytes : List UInt8) :
    lineBytes (line ++ lineFeed :: bytes) = dropReturn line :: lineBytes bytes := by
  simp only [lineBytes, lastPiece_append_lineFeed unbroken, completeLines_append_lineFeed unbroken]
  split <;> rfl

theorem exists_line_of_mem (h : lineFeed ∈ bytes) :
    ∃ line rest, bytes = line ++ lineFeed :: rest ∧ lineFeed ∉ line :=
  List.eq_append_cons_of_mem h

theorem isLines_lineBytes (bytes : List UInt8) : IsLines bytes (lineBytes bytes) := by
  induction h : bytes.length using Nat.strongRecOn generalizing bytes with
  | _ n ih =>
  by_cases feed : lineFeed ∈ bytes
  · obtain ⟨line, rest, rfl, unbroken⟩ := exists_line_of_mem feed
    have tail := ih rest.length (by simp [← h]; omega) rest rfl
    rw [lineBytes_append_lineFeed unbroken, dropReturn]
    split
    next last =>
      obtain ⟨line, rfl⟩ := List.getLast?_eq_some_iff.1 last
      rw [List.dropLast_concat, List.append_assoc]
      exact .returnFeed (fun h => unbroken (List.mem_append_left _ h)) tail
    next last => exact .feed unbroken last tail
  · rcases eq_or_ne bytes [] with rfl | nonempty
    · exact .nil
    · rw [lineBytes_of_unbroken nonempty feed]
      exact .rest nonempty feed

theorem IsLines.eq_lineBytes (h : IsLines bytes lines) : lines = lineBytes bytes := by
  induction h with
  | nil => rfl
  | rest nonempty unbroken => rw [lineBytes_of_unbroken nonempty unbroken]
  | feed unbroken plain _ ih => rw [lineBytes_append_lineFeed unbroken, dropReturn, if_neg plain, ih]
  | @returnFeed line bytes lines unbroken _ ih =>
    rw [show line ++ carriageReturn :: lineFeed :: bytes =
      (line ++ [carriageReturn]) ++ lineFeed :: bytes by simp,
      lineBytes_append_lineFeed (lineFeed_notMem_concat unbroken (by decide)), dropReturn_concat, ih]

/-- **The lines of a byte string are those that are found.** -/
theorem isLines_iff : IsLines bytes lines ↔ lines = lineBytes bytes :=
  ⟨IsLines.eq_lineBytes, fun h => h ▸ isLines_lineBytes bytes⟩

instance (bytes : List UInt8) (lines : List (List UInt8)) : Decidable (IsLines bytes lines) :=
  decidable_of_iff _ isLines_iff.symm

theorem IsLines.unbroken (h : IsLines bytes lines) : ∀ line ∈ lines, lineFeed ∉ line := by
  induction h with
  | nil => simp
  | rest _ unbroken => simpa using unbroken
  | feed unbroken _ _ ih => simpa using ⟨unbroken, ih⟩
  | returnFeed unbroken _ ih => simpa using ⟨unbroken, ih⟩

theorem IsLines.eq_nil_iff (h : IsLines bytes lines) : lines = [] ↔ bytes = [] := by
  cases h with
  | nil => simp
  | rest nonempty _ => simpa using nonempty
  | feed => simp
  | returnFeed => simp

theorem isText_append_lineFeed {line bytes : List UInt8} :
    IsText (line ++ lineFeed :: bytes) ↔ IsText line ∧ IsText bytes :=
  isText_append_cons_iff (by decide)

theorem isText_append_returnFeed {line bytes : List UInt8} :
    IsText (line ++ carriageReturn :: lineFeed :: bytes) ↔ IsText line ∧ IsText bytes := by
  rw [isText_append_cons_iff (by decide), ← List.nil_append (lineFeed :: bytes),
    isText_append_lineFeed, and_iff_right isText_nil]

/-- **A byte string is a text exactly when each of its lines is.** -/
theorem IsLines.isText_iff (h : IsLines bytes lines) : IsText bytes ↔ ∀ line ∈ lines, IsText line := by
  induction h with
  | nil => simp [isText_nil]
  | rest => simp
  | feed _ _ _ ih => rw [isText_append_lineFeed, ih, List.forall_mem_cons]
  | returnFeed _ _ ih => rw [isText_append_returnFeed, ih, List.forall_mem_cons]

/-- The lines that end in `head` are the first ones, as many as it has line feeds. -/
theorem take_count_lineBytes (head rest : List UInt8) :
    (lineBytes (head ++ rest)).take (head.count lineFeed) = completeLines head := by
  induction h : head.count lineFeed generalizing head with
  | zero => rw [List.take_zero, completeLines_of_unbroken (List.count_eq_zero.1 h)]
  | succ n ih =>
    have feed : lineFeed ∈ head := List.count_pos_iff.1 (by omega)
    obtain ⟨line, tail, rfl, unbroken⟩ := exists_line_of_mem feed
    have hn : tail.count lineFeed = n := by
      rw [List.count_append, List.count_cons_self, List.count_eq_zero_of_not_mem unbroken] at h
      omega
    rw [List.append_assoc, List.cons_append, lineBytes_append_lineFeed unbroken,
      List.take_succ_cons, ih tail hn, completeLines_append_lineFeed unbroken]

/-- **The first lines do not depend on what follows them**: as many as there are line feeds. -/
theorem take_lineBytes_append {head : List UInt8} {n : Nat} (h : n ≤ head.count lineFeed)
    (rest rest' : List UInt8) :
    (lineBytes (head ++ rest)).take n = (lineBytes (head ++ rest')).take n := by
  have first (rest : List UInt8) :
      (lineBytes (head ++ rest)).take n = (completeLines head).take n := by
    rw [← take_count_lineBytes head rest, List.take_take, Nat.min_eq_left h]
  rw [first rest, first rest']

/-! ## Texts of lines -/

theorem readLine_eq_ok_iff {text : String} : readLine line = .ok text ↔ encode text = line := by
  rw [readLine, ← decode?_eq_some_iff]
  split <;> simp [*]

theorem readLine_eq_error_iff {failure : ReadFailure} :
    readLine line = .error failure ↔ ¬ IsText line ∧ failure = .notText := by
  rw [readLine, ← decode?_eq_none_iff]
  split <;> simp [*, eq_comm]

theorem map_readLine_eq_map_ok_iff {texts : List String} :
    lines.map readLine = texts.map .ok ↔ lines = texts.map encode := by
  induction lines generalizing texts with
  | nil => simp [eq_comm]
  | cons line lines ih =>
    cases texts with
    | nil => simp
    | cons text texts =>
      rw [List.map_cons, List.map_cons, List.map_cons, List.cons.injEq, List.cons.injEq, ih,
        readLine_eq_ok_iff, eq_comm (a := line)]

theorem lineFeed_mem_encode_iff {text : String} : lineFeed ∈ encode text ↔ '\n' ∈ text.toList := by
  rw [encode_eq]
  exact mem_encodeChars_iff rfl (by decide)

/-! ## Fields -/

/-- The text without the blanks before and after it. -/
structure IsTrimmed (text trimmed : List Char) : Prop where
  margins : ∃ before after, text = before ++ trimmed ++ after ∧
    (∀ c ∈ before, isBlank c) ∧ ∀ c ∈ after, isBlank c
  first : ∀ c ∈ trimmed.head?, isBlank c = false
  last : ∀ c ∈ trimmed.getLast?, isBlank c = false

theorem trim_append_left {before : List Char} (h : ∀ c ∈ before, isBlank c) (text : List Char) :
    trim (before ++ text) = trim text := by
  rw [trim, List.dropWhile_append_of_pos h, trim]

theorem trim_append_right {after : List Char} (h : ∀ c ∈ after, isBlank c) (text : List Char) :
    trim (text ++ after) = trim text := by
  have hr : ∀ c ∈ after.reverse, isBlank c := by simpa using h
  rw [trim, List.dropWhile_append, trim]
  split
  next empty =>
    rw [List.isEmpty_iff.1 empty, List.dropWhile_eq_nil_iff.2 h]
  next => rw [List.reverse_append, List.dropWhile_append_of_pos hr]

theorem isBlank_of_mem_dropWhile_head? {text : List Char} :
    ∀ c ∈ (text.dropWhile isBlank).head?, isBlank c = false := by
  intro c hc
  have := List.head?_dropWhile_not isBlank text
  rw [Option.mem_def.1 hc] at this
  exact this

theorem isTrimmed_trim (text : List Char) : IsTrimmed text (trim text) := by
  set rest := text.dropWhile isBlank with hrest
  have split : rest = trim text ++ (rest.reverse.takeWhile isBlank).reverse := by
    rw [trim, ← hrest, ← List.reverse_append, List.takeWhile_append_dropWhile, List.reverse_reverse]
  refine ⟨⟨text.takeWhile isBlank, (rest.reverse.takeWhile isBlank).reverse, ?_, ?_, ?_⟩, ?_, ?_⟩
  · rw [List.append_assoc, ← split, hrest, List.takeWhile_append_dropWhile]
  · exact fun c hc => List.mem_takeWhile_imp hc
  · exact fun c hc => List.mem_takeWhile_imp (List.mem_reverse.1 hc)
  · intro c hc
    have hr : c ∈ rest.head? := by
      rw [split, List.head?_append, Option.mem_def.1 hc]
      rfl
    exact isBlank_of_mem_dropWhile_head? c hr
  · intro c hc
    rw [trim, List.getLast?_reverse] at hc
    exact isBlank_of_mem_dropWhile_head? c hc

theorem IsTrimmed.subset {text trimmed : List Char} (h : IsTrimmed text trimmed) :
    trimmed ⊆ text := by
  obtain ⟨⟨before, after, rfl, -⟩, -, -⟩ := h
  exact List.subset_append_of_subset_left _ (List.subset_append_right _ _)

theorem isTrimmed_iff {text trimmed : List Char} : IsTrimmed text trimmed ↔ trimmed = trim text := by
  constructor
  · rintro ⟨⟨before, after, rfl, hb, ha⟩, first, last⟩
    rw [trim_append_right ha, trim_append_left hb, trim_eq_self first last]
  · rintro rfl
    exact isTrimmed_trim text

/-- The fields of a line: it is cut at every delimiter, and blanks around the pieces are dropped. -/
def IsRecord (delimiter : Char) (line : String) (record : List (List Char)) : Prop :=
  ∃ pieces, pieces ≠ [] ∧ (∀ piece ∈ pieces, delimiter ∉ piece) ∧
    [delimiter].intercalate pieces = line.toList ∧ List.Forall₂ IsTrimmed pieces record

theorem not_mem_of_mem_splitOn {α : Type} [BEq α] [LawfulBEq α] {sep : α} {text piece : List α}
    (h : piece ∈ text.splitOn sep) : sep ∉ piece := by
  induction text generalizing piece with
  | nil => simp_all
  | cons x text ih =>
    rw [List.splitOn_cons_eq_if_modifyHead] at h
    split at h
    · rcases List.mem_cons.1 h with rfl | h
      · simp
      · exact ih h
    · next hx =>
      obtain ⟨first, rest, hs⟩ := List.exists_cons_of_ne_nil (List.splitOn_ne_nil sep text)
      rw [hs, List.modifyHead_cons] at h
      rw [hs] at ih
      rcases List.mem_cons.1 h with rfl | h
      · have : sep ≠ x := fun e => hx (by simp [e])
        simpa [this] using ih List.mem_cons_self
      · exact ih (List.mem_cons_of_mem _ h)

theorem subset_of_mem_splitOn {α : Type} [BEq α] [LawfulBEq α] {sep : α} {text piece : List α}
    (h : piece ∈ text.splitOn sep) : piece ⊆ text := by
  obtain ⟨i, hi⟩ := List.mem_iff_getElem?.1 h
  have mem : piece ∈ (text.splitOn sep).intersperse [sep] :=
    List.mem_iff_getElem?.2 ⟨2 * i, by rw [List.getElem?_intersperse_two_mul, hi]⟩
  have joined : [sep].intercalate (text.splitOn sep) = text := List.intercalate_splitOn sep
  rw [← joined]
  exact fun c hc => List.mem_flatten.2 ⟨piece, mem, hc⟩

theorem forall₂_iff_eq_map {α β : Type} {related : α → β → Prop} {f : α → β}
    (h : ∀ a b, related a b ↔ b = f a) {l : List α} {u : List β} :
    List.Forall₂ related l u ↔ u = l.map f := by
  constructor
  · intro hl
    induction hl with
    | nil => rfl
    | cons first _ ih => rw [List.map_cons, (h _ _).1 first, ih]
  · rintro rfl
    rw [List.forall₂_map_right_iff, List.forall₂_same]
    exact fun a _ => (h _ _).2 rfl

theorem fields_intercalate {delimiter : Char} {pieces : List (List Char)} (nonempty : pieces ≠ [])
    (free : ∀ piece ∈ pieces, delimiter ∉ piece) :
    fields delimiter (String.ofList ([delimiter].intercalate pieces)) = pieces.map trim := by
  rw [fields, String.toList_ofList, List.splitOn_intercalate delimiter free nonempty]

theorem isRecord_iff {delimiter : Char} {line : String} {record : List (List Char)} :
    IsRecord delimiter line record ↔ record = fields delimiter line := by
  constructor
  · rintro ⟨pieces, nonempty, free, joined, trimmed⟩
    rw [fields, ← joined, List.splitOn_intercalate delimiter free nonempty,
      (forall₂_iff_eq_map @isTrimmed_iff).1 trimmed]
  · rintro rfl
    exact ⟨line.toList.splitOn delimiter, List.splitOn_ne_nil _ _,
      fun _ => not_mem_of_mem_splitOn, List.intercalate_splitOn delimiter,
      (forall₂_iff_eq_map @isTrimmed_iff).2 rfl⟩

instance (delimiter : Char) (line : String) (record : List (List Char)) :
    Decidable (IsRecord delimiter line record) := decidable_of_iff _ isRecord_iff.symm

theorem fields_ne_nil (delimiter : Char) (line : String) : fields delimiter line ≠ [] := by
  rw [fields, ne_eq, List.map_eq_nil_iff]
  exact List.splitOn_ne_nil _ _

theorem subset_of_mem_fields {delimiter : Char} {line : String} {field : List Char}
    (h : field ∈ fields delimiter line) : field ⊆ line.toList := by
  obtain ⟨piece, hp, rfl⟩ := List.mem_map.1 h
  exact List.Subset.trans (isTrimmed_trim piece).subset (subset_of_mem_splitOn hp)

end ColumnStats
