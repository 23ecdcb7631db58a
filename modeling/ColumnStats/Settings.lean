import ColumnStats.Binary64.Basic

/-!
# Settings of an analysis

The separator of fields and the factor of the interval.
-/

namespace ColumnStats

/-- The factor of a two-sided interval of 95 percent. -/
def factor95 : Binary64 := .ofRatio 196 100

/-- How fields are separated and how wide intervals are. -/
structure Settings where
  /-- The separator is the character with this number. -/
  delimiter : UInt8 := 44
  /-- The factor that the standard error is multiplied by. -/
  z : Binary64 := factor95
  deriving DecidableEq

end ColumnStats
