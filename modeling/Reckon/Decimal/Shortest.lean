import Reckon.Binary64.Basic

/-!
# The shortest decimal of a double

A finite double is written with the fewest digits that read back as it.
For each number of digits only the two decimals around the value can do
so, since a decimal further away is no nearer to it than they are. The
nearer one is tried first. Should no short decimal read back, the value's
own decimal expansion does.
-/

namespace Reckon

namespace Decimal

/-- **The decimal of `digits` digits nearest to `num / den`**, a half
going to the even last digit. Rounding up may carry to the next power of
ten. -/
def nearest (digits num den : Nat) : Decimal :=
  let step := decimalOrder num den - ((digits : Int) - 1)
  ⟨roundDivPow 10 step num den, step⟩

/-- The other one of the two decimals of `digits` digits around
`num / den`. -/
def secondNearest (digits num den : Nat) : Decimal :=
  let step := decimalOrder num den - ((digits : Int) - 1)
  let below := floorDivPow 10 step num den
  ⟨if roundDivPow 10 step num den = below then below + 1 else below, step⟩

/-- The decimals of up to 17 digits that may be the shortest one, in the
order in which they are tried. -/
def candidates (num den : Nat) : List Decimal :=
  (List.range 17).flatMap fun n => [nearest (n + 1) num den, secondNearest (n + 1) num den]

/-- The decimal that `significand * 2 ^ exponent` is, in full. -/
def exact (significand : Nat) (exponent : Int) : Decimal :=
  if 0 ≤ exponent then ⟨significand * Nat.pow 2 exponent.toNat, 0⟩
  else ⟨significand * Nat.pow 5 (-exponent).toNat, exponent⟩

/-- The value `significand * 2 ^ exponent` as a quotient. -/
def quotient (significand : Nat) (exponent : Int) : Nat × Nat :=
  if 0 ≤ exponent then (significand * Nat.pow 2 exponent.toNat, 1)
  else (significand, Nat.pow 2 (-exponent).toNat)

/-- **The shortest decimal that reads back** as the positive double
`significand * 2 ^ exponent`. -/
def shortest (significand : Nat) (exponent : Int) : Decimal :=
  let (num, den) := quotient significand exponent
  let value := Binary64.nearestMagnitude num den
  match (candidates num den).find? fun d => Binary64.decimalMagnitude d == value with
  | some d => d
  | none => exact significand exponent

end Decimal

end Reckon
