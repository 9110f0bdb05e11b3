import Reckon.Binary64.Basic

/-!
# Powers

`power v b` is `v` to the power `b` as the floating-point standard lays
it down. Every operand that is zero, infinite or undefined, and every
sign, is settled by a rule stated here; the library's power function is
asked for a positive finite base and a finite exponent only, which leaves
it the size of the result and nothing else.

Two rules answer before an undefined operand is looked at: any base to
the power zero is one, and one to any power is one.
-/

namespace Reckon

namespace Binary64

/-- A zero base. A negative exponent makes it a pole. The sign of the
zero counts only under an odd exponent. -/
def powerOfZero (negative : Bool) (b : Binary64) : Float :=
  let sign := negative && b.isOdd
  if b.isNegative then infinity sign else zero sign

/-- An infinite base. The sign of the infinity counts only under an odd
exponent. -/
def powerOfInfinity (negative : Bool) (b : Binary64) : Float :=
  let sign := negative && b.isOdd
  if b.isNegative then zero sign else infinity sign

/-- An infinite exponent, over a base that is neither zero nor infinite.
It compares the size of the base with one; a base of minus one is one. -/
def powerToInfinity (v : Float) (negative : Bool) : Float :=
  let size := v.abs
  if size == 1 then 1
  else if decide (1 < size) == negative then zero false
  else infinity false

/-- **`v` to the power `b`.** -/
def power (v b : Float) : Float :=
  if b == 0 then 1
  else if v == 1 then 1
  else
    match ofFloat v, ofFloat b with
    | .nan, _ => undefined
    | _, .nan => undefined
    | .infinite negative, e => powerOfInfinity negative e
    | .finite negative 0 _, e => powerOfZero negative e
    | .finite .., .infinite negative => powerToInfinity v negative
    | .finite negative .., e =>
      if !negative then Float.pow v b
      else if !e.isWhole then undefined
      else if e.isOdd then -Float.pow (-v) b
      else Float.pow (-v) b

end Binary64

end Reckon
