import Reckon.Binary64.Remainder
import Reckon.Binary64.Power
import Reckon.Operator

/-!
# Doubles as an arithmetic

The arithmetic of expressions over doubles: sum, difference, product and
quotient are the floating-point ones, so a division by zero is an
infinity or undefined; remainder and power are the ones of this folder;
and a written decimal denotes the nearest double.
-/

namespace Reckon

instance : Arithmetic Float where
  zero := Binary64.zero false
  one := 1
  minusOne := -1
  undefined := Binary64.undefined
  add := Float.add
  sub := Float.sub
  mul := Float.mul
  div := Float.div
  rem := Binary64.remainder
  pow := Binary64.power
  ofDecimal := Binary64.ofDecimal false

end Reckon
