/-!
# Decimals

A decimal is a whole number of steps of some power of ten. It is what a
written number denotes before any rounding: `2.50` is `250` steps of
`10⁻²`. Reading a run of digits is exact – the arithmetic that the value
is then used in decides how it rounds.

`Decimal.ofRun?` reads the runs that an expression may hold, digits and
points with no sign and no exponent. It accepts a run exactly if some
character is a digit and at most one is a point.
-/

namespace Reckon

/-- **A decimal**: `significand * 10 ^ exponent`. -/
structure Decimal where
  /-- How many steps. -/
  significand : Nat
  /-- The power of ten that one step is. -/
  exponent : Int
deriving Repr, DecidableEq

namespace Decimal

/-- The decimal that the digits `whole`, a point and the digits
`fraction` denote. -/
def ofDigits (whole fraction : List Char) : Decimal where
  significand := Nat.ofDigitChars 10 (whole ++ fraction) 0
  exponent := -(fraction.length : Int)

/-- **Reads a run of digits and points.** The digits before the first
point and the ones after it may each be missing, but not both; a second
point makes the run malformed. -/
def ofRun? (run : List Char) : Option Decimal :=
  let whole := run.takeWhile (· != '.')
  let fraction := (run.dropWhile (· != '.')).drop 1
  if (whole ++ fraction).all Char.isDigit && !(whole ++ fraction).isEmpty then
    some (ofDigits whole fraction)
  else
    none

/-- The same value times a power of ten. -/
def scale (d : Decimal) (k : Int) : Decimal :=
  { d with exponent := d.exponent + k }

@[simp] theorem scale_zero (d : Decimal) : d.scale 0 = d := by
  simp [scale]

end Decimal

end Reckon
