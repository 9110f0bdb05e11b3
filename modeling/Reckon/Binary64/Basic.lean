import Reckon.Decimal.Basic
import Reckon.Rounding

/-!
# The binary64 format

A finite double is `± significand * 2 ^ exponent`, and `Binary64.ofFloat`
reads sign, significand and exponent off its bits. Going back, the bits
of a magnitude are `(exponent + 1074) * 2 ^ 52 + significand`: one formula
for subnormal and normal numbers, in which a significand that rounds up
to `2 ^ 53` carries into the exponent and a carry out of the largest
finite number arrives at infinity.

`nearest` rounds any quotient of whole numbers to the nearest double, a
half going to the even significand. Reading a decimal is that function at
the quotient the decimal denotes.
-/

namespace Reckon

/-- **What a double stands for.** -/
inductive Binary64 where
  /-- No number: an undefined result. -/
  | nan
  /-- An infinity. -/
  | infinite (negative : Bool)
  /-- The number `± significand * 2 ^ exponent`. -/
  | finite (negative : Bool) (significand : Nat) (exponent : Int)
deriving Repr, DecidableEq

namespace Binary64

/-- The magnitude bits of an infinity: one above the largest finite
magnitude. -/
def infinityBits : Nat := 0x7ff0000000000000

/-- The weight of the sign bit. -/
def signBit : Nat := Nat.pow 2 63

/-- The least exponent: the one of the subnormal numbers. -/
def leastExponent : Int := -1074

/-- Reads sign, exponent field and fraction of a bit pattern. -/
def ofBits (bits : Nat) : Binary64 :=
  let negative := signBit ≤ bits
  let field : Nat := bits / Nat.pow 2 52 % Nat.pow 2 11
  let fraction : Nat := bits % Nat.pow 2 52
  if field = 2047 then
    if fraction = 0 then .infinite negative else .nan
  else if field = 0 then .finite negative fraction leastExponent
  else .finite negative (fraction + Nat.pow 2 52) ((field : Int) - 1075)

/-- **What the double `x` stands for.** -/
def ofFloat (x : Float) : Binary64 :=
  ofBits x.toBits.toNat

/-- The double with the given sign and magnitude bits. -/
def withSign (negative : Bool) (magnitude : Nat) : Float :=
  Float.ofBits (UInt64.ofNat (if negative then signBit + magnitude else magnitude))

/-- The infinity of the given sign. -/
def infinity (negative : Bool) : Float :=
  withSign negative infinityBits

/-- The zero of the given sign. -/
def zero (negative : Bool) : Float :=
  withSign negative 0

/-- The one undefined value. -/
def undefined : Float :=
  Float.ofBits 0x7ff8000000000000

/-- The magnitude bits of the double nearest to `num / den`. The step is
the spacing of the doubles around the quotient, and never finer than the
subnormal one. -/
def nearestMagnitude (num den : Nat) : Nat :=
  if num = 0 then 0
  else
    let step := max (binaryOrder num den - 52) leastExponent
    min ((step - leastExponent).toNat * Nat.pow 2 52 + roundDivPow 2 step num den)
      infinityBits

/-- **The double nearest to `± num / den`**, an infinity if it is at or
beyond the midpoint above the largest finite one. -/
def nearest (negative : Bool) (num den : Nat) : Float :=
  withSign negative (nearestMagnitude num den)

/-- The double nearest to `± significand * 2 ^ exponent`. -/
def nearestScaled (negative : Bool) (significand : Nat) (exponent : Int) : Float :=
  if 0 ≤ exponent then nearest negative (significand * Nat.pow 2 exponent.toNat) 1
  else nearest negative significand (Nat.pow 2 (-exponent).toNat)

/-- A decimal that starts at this power of ten or above is beyond every
finite double. -/
def decimalCeiling : Int := 310

/-- A decimal that ends below this power of ten is nearer to zero than to
every other double. -/
def decimalFloor : Int := -330

/-- The magnitude bits of the double nearest to a decimal. The two guards
only keep a far exponent from being written out as a power of ten. -/
def decimalMagnitude (d : Decimal) : Nat :=
  let digits : Int := (Nat.toDigits 10 d.significand).length
  if d.significand = 0 then 0
  else if decimalCeiling ≤ d.exponent + digits - 1 then infinityBits
  else if d.exponent + digits ≤ decimalFloor then 0
  else if 0 ≤ d.exponent then nearestMagnitude (d.significand * Nat.pow 10 d.exponent.toNat) 1
  else nearestMagnitude d.significand (Nat.pow 10 (-d.exponent).toNat)

/-- **The double nearest to a decimal** of the given sign. -/
def ofDecimal (negative : Bool) (d : Decimal) : Float :=
  withSign negative (decimalMagnitude d)

/-- The double nearest to a whole number. -/
def ofInt (n : Int) : Float :=
  nearest (n < 0) n.natAbs 1

/-- Is the number a whole one? -/
def isWhole : Binary64 → Bool
  | .finite _ significand exponent =>
    0 ≤ exponent || significand % Nat.pow 2 (-exponent).toNat == 0
  | _ => false

/-- **Is the number an odd whole one?** A positive exponent makes it
even. -/
def isOdd : Binary64 → Bool
  | .finite _ significand exponent =>
    exponent ≤ 0 && significand % Nat.pow 2 (-exponent).toNat == 0 &&
      significand / Nat.pow 2 (-exponent).toNat % 2 == 1
  | _ => false

/-- Is the sign bit set? A negative zero has it set as well. -/
def isNegative : Binary64 → Bool
  | .infinite negative => negative
  | .finite negative _ _ => negative
  | .nan => false

end Binary64

end Reckon
