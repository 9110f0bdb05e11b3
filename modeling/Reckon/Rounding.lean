/-!
# Rounding a quotient

Every rounding of this library is one question: which whole number is
nearest to `num / den`. An exact half goes to the even neighbour. The
number formats and the binary64 encoding differ only in the quotient that
they ask about.

Beside it stand the two logarithms that choose the quotient: the power of
two, or of ten, at which a positive quotient starts.
-/

namespace Reckon

/-- **The whole number nearest to `num / den`**, a half going to the even
neighbour. -/
def roundDiv (num den : Nat) : Nat :=
  let below := num / den
  let rest := num % den
  if 2 * rest < den then below
  else if den < 2 * rest then below + 1
  else below + below % 2

/-- A whole quotient is its own rounding. -/
theorem roundDiv_mul_right (k : Nat) {den : Nat} (h : 0 < den) :
    roundDiv (k * den) den = k := by
  simp [roundDiv, Nat.mul_div_cancel k h, h]

/-- The rounding is one of the two whole numbers around the quotient. -/
theorem roundDiv_eq_or (num den : Nat) :
    roundDiv num den = num / den ∨ roundDiv num den = num / den + 1 := by
  unfold roundDiv
  have := Nat.mod_two_eq_zero_or_one (num / den)
  dsimp only
  split
  · exact .inl rfl
  · split
    · exact .inr rfl
    · omega

/-- `num / den` counted in steps of `base ^ k`, rounded. A negative `k`
makes the steps finer than one. -/
def roundDivPow (base : Nat) (k : Int) (num den : Nat) : Nat :=
  if 0 ≤ k then roundDiv num (den * Nat.pow base k.toNat)
  else roundDiv (num * Nat.pow base (-k).toNat) den

/-- The whole part of `num / den` counted in steps of `base ^ k`. -/
def floorDivPow (base : Nat) (k : Int) (num den : Nat) : Nat :=
  if 0 ≤ k then num / (den * Nat.pow base k.toNat)
  else num * Nat.pow base (-k).toNat / den

/-- **The binary order of a positive quotient**: the `e` with
`2 ^ e ≤ num / den < 2 ^ (e + 1)`. The difference of the two logarithms
is it or one too many. -/
def binaryOrder (num den : Nat) : Int :=
  let guess : Int := (num.log2 : Int) - den.log2
  if 1 ≤ floorDivPow 2 guess num den then guess else guess - 1

/-- **The decimal order of a positive quotient**: the `e` with
`10 ^ e ≤ num / den < 10 ^ (e + 1)`. From one upward it is read off the
digits of the whole part; below one, off those of the inverse. -/
def decimalOrder (num den : Nat) : Int :=
  if den ≤ num then ((Nat.toDigits 10 (num / den)).length : Int) - 1
  else -((Nat.toDigits 10 ((den - 1) / num)).length : Int)

end Reckon
