import ColumnStats.Binary64.Arith
import ColumnStats.Decimal.Fixed
import ColumnStats.Fault
import ColumnStats.Table

/-!
# Summaries of columns

The mean of a column and the half-width of a confidence interval around it: the standard error,
times a factor that the caller chooses. Sums run from the first value to the last and start from
the negative zero, which is neutral.

* `mean`, `deviation`: the statistics of a series;
* `Column.summary`: refused for fewer than two values, and for no rows;
* `Summary.text`: label, mean and half-width.
-/

namespace ColumnStats

/-- The sum of a series, from the first value to the last. -/
def sum (values : Array Binary64) : Binary64 := values.foldl (· + ·) (.zero true)

/-- The sum divided by the number of values; NaN for none. -/
def mean (values : Array Binary64) : Binary64 := sum values / .ofNat values.size

/-- The root of the sum of squared deviations, divided by one less than the number of values. -/
def deviation (values : Array Binary64) (mean : Binary64) : Binary64 :=
  let squares := values.map fun x => (x - mean) * (x - mean)
  (sum squares / (.ofNat values.size - .ofNat 1)).sqrt

/-- Mean and half-width of the interval of one column. -/
structure Summary where
  label : String
  mean : Binary64
  halfWidth : Binary64
  deriving DecidableEq

namespace Summary

/-- The number of decimals of a mean and of a half-width. -/
def places : Nat := 6

/-- Label, mean and half-width, parted by single spaces. -/
def text (summary : Summary) : String :=
  summary.label ++ " " ++ String.ofList (summary.mean.fixed places) ++ " " ++
    String.ofList (summary.halfWidth.fixed places)

/-- Both summaries have the same label and numerically equal values. -/
def agrees (x y : Summary) : Bool :=
  x.label = y.label && x.mean.eqv y.mean && x.halfWidth.eqv y.halfWidth

end Summary

/-- The summary of a column over a number of rows, its standard error multiplied by `z`. -/
def Column.summary (column : Column) (rows : Nat) (z : Binary64) : Except Fault Summary :=
  if column.values.size < 2 ∨ rows = 0 then .error (.tooFew column.label column.values.size)
  else
    let mean := mean column.values
    let stdError := deviation column.values mean / (Binary64.ofNat rows).sqrt
    .ok ⟨column.label, mean, stdError * z⟩

end ColumnStats
