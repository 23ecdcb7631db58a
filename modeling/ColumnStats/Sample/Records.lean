import ColumnStats.Decimal.Fixed
import ColumnStats.Sample.Shape
import ColumnStats.Sample.KeyStream
import ColumnStats.Sample.Uniform

/-!
# Sample tables

Four columns of noise around a centre, three decimals a number. One stream is drawn from, row by row
and from left to right; a row is broken after all its fields were drawn.

* `series`: the columns;
* `drawFields`, `drawRows`: the fields of a row and the rows of a table, as they are drawn;
* `records`: the records of a shape, the header first.
-/

namespace ColumnStats.Sample

/-- A column of noise: its label, the centre and the greatest distance from it. -/
structure Series where
  label : String
  centre : Nat
  spread : Nat

/-- The columns of every sample. -/
def series : List Series :=
  [⟨"solve_ms", 120, 25⟩, ⟨"conflicts", 4200, 900⟩, ⟨"decisions", 9800, 1500⟩, ⟨"restarts", 12, 5⟩]

/-- The number of decimals of a field. -/
def places : Nat := 3

/-- The seed of every sample. -/
def seed : UInt64 := 42

/-- The number that a word stands for in a column. -/
def Series.value (column : Series) (word : UInt64) : Binary64 :=
  .ofNat column.centre + Uniform.draw (.ofNat column.spread) word

/-- The field that a word stands for in a column. -/
def Series.field (column : Series) (word : UInt64) : String :=
  String.ofList ((column.value word).fixed places)

/-- Draws a field for each column, from left to right. -/
def drawFields : List Series → KeyStream.Stream → List String × KeyStream.Stream
  | [], stream => ([], stream)
  | column :: columns, stream =>
    let (word, stream) := stream.next
    let (fields, stream) := drawFields columns stream
    (column.field word :: fields, stream)

/-- The fields of the broken row of a shape. -/
def breakRow (shape : Shape) (fields : List String) : List String :=
  match shape with
  | .nonNumeric => fields.dropLast ++ ["n/a"]
  | .shortRow => fields.dropLast
  | _ => fields

/-- Draws `count` rows, the first of them with number `index`; row `middle` is broken. -/
def drawRows (shape : Shape) (middle count index : Nat) (stream : KeyStream.Stream) :
    List (List String) :=
  match count with
  | 0 => []
  | count + 1 =>
    let (fields, stream) := drawFields series stream
    let row := if index = middle then breakRow shape fields else fields
    row :: drawRows shape middle count (index + 1) stream

/-- The rows of a shape; the middle one is broken where the shape asks for it. -/
def rows (shape : Shape) (count : Nat) : List (List String) :=
  drawRows shape (count / 2) count 0 (KeyStream.ofSeed seed)

/-- The records of a shape, the header first. -/
def records (shape : Shape) (count : Nat) : List (List String) :=
  series.map Series.label :: rows shape count

/-- A record as a line: its fields, parted by commas. -/
def recordLine (record : List String) : String := ",".intercalate record ++ "\n"

end ColumnStats.Sample
