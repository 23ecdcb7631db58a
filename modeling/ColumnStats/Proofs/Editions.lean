import ColumnStats.Proofs.Samples

/-!
# Samples as editions of one table

All samples are drawn from one stream. A longer table continues a shorter one, and a broken one
differs from a whole one in its middle line only.

* `lineFields_valid`: the lines of a whole table; `noise_range_prefix`: the rows of a shorter table
  come first in a longer one;
* `exists_lineFields_eq`: **whole and broken tables differ in the middle line only**;
* `samples_share_one_stream`: the same for what the command writes.
-/

namespace ColumnStats

open Text

namespace Sample

variable {count : Nat}

/-! ## Tables -/

theorem lineFields_valid (count : Nat) :
    lineFields .valid count = header :: noise (List.range count) := by
  rw [lineFields_of_unbroken fun _ => rfl, if_neg (by decide), List.append_nil]

theorem noise_range_prefix {more : Nat} (le : count ≤ more) :
    noise (List.range count) <+: noise (List.range more) := by
  obtain ⟨rest, rfl⟩ := Nat.exists_eq_add_of_le le
  rw [List.range_add]
  exact ((List.prefix_append _ _).map row).map _

theorem exists_row_eq (index : Nat) : ∃ fields last, fields.length = 3 ∧
    row index = fields ++ [last] ∧ breakRow .nonNumeric (row index) = fields ++ ["n/a"] ∧
    breakRow .shortRow (row index) = fields := by
  have length : (row index).length = 4 := length_row index
  have nonempty : row index ≠ [] := List.length_pos_iff.1 (by omega)
  refine ⟨(row index).dropLast, (row index).getLast nonempty, ?_, ?_, rfl, rfl⟩
  · rw [List.length_dropLast, length]
  · exact (List.dropLast_append_getLast nonempty).symm

/-- **Whole and broken tables differ in the middle line only.** The broken row takes all its words
from the stream, so that the rows after it are the same. -/
theorem exists_lineFields_eq (positive : 0 < count) : ∃ before fields last after,
    before.length = count / 2 + 1 ∧ fields.length = 3 ∧
    lineFields .valid count = before ++ (fields ++ [last]) :: after ∧
    lineFields .nonNumeric count = before ++ (fields ++ ["n/a".toList]) :: after ∧
    lineFields .shortRow count = before ++ fields :: after := by
  obtain ⟨after, split⟩ := rows_eq positive
  obtain ⟨fields, last, length, whole, nonNumeric, shortRow⟩ := exists_row_eq (count / 2)
  have lines {shape : Shape} (ended : shape ≠ .blankLine) : lineFields shape count =
      header :: noise (List.range (count / 2)) ++
        (breakRow shape (row (count / 2))).map String.toList :: noise after := by
    rw [lineFields, records, split shape, if_neg ended, List.append_nil, List.map_cons,
      List.map_append, List.map_cons]
    rfl
  refine ⟨header :: noise (List.range (count / 2)), fields.map String.toList, last.toList,
    noise after, ?_, ?_, ?_, ?_, ?_⟩
  · rw [List.length_cons, length_noise, List.length_range]
  · rw [List.length_map, length]
  · have kept : breakRow .valid (row (count / 2)) = row (count / 2) := rfl
    rw [lines (by decide), kept, whole, List.map_append, List.map_singleton]
  · rw [lines (by decide), nonNumeric, List.map_append, List.map_singleton]
  · rw [lines (by decide), shortRow]

end Sample

/-! ## The command -/

namespace Command

open Sample

/-- **All samples are editions of one table**: its beginning, a blank line after it, or another
middle row. -/
theorem samples_share_one_stream {count more : Nat} (le : count ≤ more) (small : more < countLimit) :
    (sampled "valid" count).stdout <+: (sampled "valid" more).stdout ∧
    (sampled "header-only" count).stdout = (sampled "valid" 0).stdout ∧
    (sampled "single-row" count).stdout = (sampled "valid" 1).stdout ∧
    (sampled "blank-line" count).stdout = (sampled "valid" count).stdout ++ [lineFeed] ∧
    ∃ before fields last after, before.length = max count 3 / 2 + 1 ∧ fields.length = 3 ∧
      (∀ record ∈ before ++ (fields ++ [last]) :: after, IsRenderable ',' record) ∧
      (sampled "valid" (max count 3)).stdout = plain ',' (before ++ (fields ++ [last]) :: after) ∧
      (sampled "non-numeric" count).stdout =
        plain ',' (before ++ (fields ++ ["n/a".toList]) :: after) ∧
      (sampled "short-row" count).stdout = plain ',' (before ++ fields :: after) := by
  have few : count < countLimit := le.trans_lt small
  have three : 3 < countLimit := by decide
  have valid {rows : Nat} (few : rows < countLimit) :
      (sampled "valid" rows).stdout = plain ',' (header :: noise (List.range rows)) := by
    rw [← lineFields_valid]
    exact @stdout_sampled "valid" .valid rows rfl few (by decide)
  have headerOnly := @stdout_sampled "header-only" .headerOnly count rfl few (by decide)
  have singleRow := @stdout_sampled "single-row" .singleRow count rfl few (by decide)
  have blankLine := @stdout_sampled "blank-line" .blankLine count rfl few (by decide)
  have nonNumeric := @stdout_sampled "non-numeric" .nonNumeric count rfl few (by decide)
  have shortRow := @stdout_sampled "short-row" .shortRow count rfl few (by decide)
  have middle := @stdout_sampled "valid" .valid (max count 3) rfl (by omega) (by decide)
  obtain ⟨before, fields, last, after, position, width, whole, other, short⟩ :=
    @exists_lineFields_eq (max count 3) (by omega)
  refine ⟨?_, ?_, ?_, ?_, before, fields, last, after, position, width, ?_, ?_, ?_, ?_⟩
  · obtain ⟨rest, e⟩ := noise_range_prefix le
    rw [valid few, valid small, ← e, ← List.cons_append, plain_append]
    exact List.prefix_append _ _
  · rw [headerOnly, valid (by decide), lineFields_of_unbroken (fun _ => rfl), if_neg (by decide),
      List.append_nil]
    rfl
  · rw [singleRow, valid (by decide), lineFields_of_unbroken (fun _ => rfl), if_neg (by decide),
      List.append_nil]
    rfl
  · rw [blankLine, valid few, lineFields_of_unbroken (fun _ => rfl), if_pos rfl, ← List.cons_append,
      plain_append]
    rfl
  · rw [← whole]
    exact fun record mem => isRenderable_of_bare (isBare_of_mem_lineFields mem)
  · rw [middle, ← whole]
    rfl
  · rw [nonNumeric, ← other]
    rfl
  · rw [shortRow, ← short]
    rfl

/-- For one row, the broken shapes have three, of which the second is broken; the largest table begins
with that row. -/
theorem one_row_begins_all_samples : 1 ≤ countLimit - 1 ∧ countLimit - 1 < countLimit ∧
    (sampled "valid" 1).stdout <+: (sampled "valid" (countLimit - 1)).stdout ∧
    ∃ header first fields last after, fields.length = 3 ∧
      (sampled "valid" 3).stdout = plain ',' (header :: first :: (fields ++ [last]) :: after) ∧
      (sampled "non-numeric" 1).stdout =
        plain ',' (header :: first :: (fields ++ ["n/a".toList]) :: after) ∧
      (sampled "short-row" 1).stdout = plain ',' (header :: first :: fields :: after) := by
  have least : 1 ≤ countLimit - 1 := by decide
  have greatest : countLimit - 1 < countLimit := by decide
  obtain ⟨begins, -, -, -, before, fields, last, after, position, width, -, whole, other, short⟩ :=
    samples_share_one_stream least greatest
  obtain ⟨header, first, rfl⟩ := List.length_eq_two.1 position
  exact ⟨least, greatest, begins, header, first, fields, last, after, width, whole, other, short⟩

end Command

end ColumnStats
