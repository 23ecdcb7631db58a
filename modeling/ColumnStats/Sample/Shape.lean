/-!
# Shapes of a sample

A sample is a table of noise around fixed centres, well formed or broken in one place.

* `Shape.ofName?`: the shape of a name;
* `Shape.rowCount`: how many rows it has where a number is asked for.
-/

namespace ColumnStats.Sample

/-- The kinds of samples. -/
inductive Shape where
  | valid
  /-- No bytes at all. -/
  | empty
  | headerOnly
  | singleRow
  /-- The middle row has a field that is no number. -/
  | nonNumeric
  /-- The middle row lacks its last field. -/
  | shortRow
  /-- An empty line follows the rows. -/
  | blankLine
  deriving DecidableEq, Repr

namespace Shape

/-- The shape that a name stands for, in small letters. -/
def ofName? : String → Option Shape
  | "valid" => some valid
  | "empty" => some empty
  | "header-only" => some headerOnly
  | "single-row" => some singleRow
  | "non-numeric" => some nonNumeric
  | "short-row" => some shortRow
  | "blank-line" => some blankLine
  | _ => none

/-- The name of a shape in a record. -/
def title : Shape → String
  | valid => "Valid"
  | empty => "Empty"
  | headerOnly => "HeaderOnly"
  | singleRow => "SingleRow"
  | nonNumeric => "NonNumeric"
  | shortRow => "ShortRow"
  | blankLine => "BlankLine"

/-- The number of rows; a broken row needs one before and one after it. -/
def rowCount (requested : Nat) : Shape → Nat
  | empty | headerOnly => 0
  | singleRow => 1
  | nonNumeric | shortRow => max requested 3
  | valid | blankLine => requested

end Shape

end ColumnStats.Sample
