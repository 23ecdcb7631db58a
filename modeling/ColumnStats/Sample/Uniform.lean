import ColumnStats.Binary64.Arith

/-!
# Uniform draws

A word of 64 bits becomes a number between `-spread` and `spread`: its upper 52 bits are a fraction
below one, which is stretched to the width of the interval and shifted to its lower end. The
stretch is the largest for which the greatest fraction stays within the interval.

* `fraction`: the number below one of a word;
* `scale`: the stretch of an interval;
* `draw`: the number of a word.
-/

namespace ColumnStats.Uniform

-- powers are those of the core library
attribute [local instance (2000)] instPowNat

/-- The units of `2 ^ -52`. -/
def fractionStep : Nat := 2 ^ (1022 : Nat)

/-- The upper 52 bits of a word as a number below one. -/
def fraction (word : UInt64) : Binary64 :=
  .ofFraction false ((word >>> 12).toNat * fractionStep) 1

/-- The greatest fraction, one step below one. -/
def maxFraction : Binary64 := .ofFraction false ((2 ^ (52 : Nat) - 1) * fractionStep) 1

/-- A fraction, stretched and shifted. -/
def place (spread scale fraction : Binary64) : Binary64 := fraction * scale + -spread

/-- The number of units of the next smaller number. -/
def unitsBelow (units : Nat) : Nat := units - 2 ^ ulpExponent (units - 1)

/-- The first stretch, from `units` downwards, for which the greatest fraction is in place. -/
def fitScale (spread : Binary64) (units : Nat) : Binary64 :=
  let scale := Binary64.ofFraction false units 1
  if 0 < units ∧ spread.lt (place spread scale maxFraction) then
    fitScale spread (unitsBelow units)
  else scale
termination_by units
decreasing_by
  have := Nat.two_pow_pos (ulpExponent (units - 1))
  simp only [unitsBelow]
  omega

/-- The stretch of the interval from `-spread` to `spread`. -/
def scale (spread : Binary64) : Binary64 :=
  match (spread - -spread) / maxFraction with
  | .finite _ units _ => fitScale spread units
  | other => other

/-- The number of a word between `-spread` and `spread`. -/
def draw (spread : Binary64) (word : UInt64) : Binary64 :=
  place spread (scale spread) (fraction word)

end ColumnStats.Uniform
