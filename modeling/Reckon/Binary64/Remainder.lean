import Reckon.Binary64.Basic

/-!
# The remainder of a division

The remainder of `v` by `b` is what is left of `v` after taking away `b`
a whole number of times, rounded toward zero. It keeps the sign of `v`
and is always exact: on a common step both operands are whole numbers,
and their remainder, smaller than each, has a significand that fits.
-/

namespace Reckon

namespace Binary64

/-- **The remainder of `v` by `b`**, with the sign of `v`. An infinite
`v` and a zero `b` have none; an infinite `b` leaves `v` as it is. -/
def remainder (v b : Float) : Float :=
  match ofFloat v, ofFloat b with
  | .nan, _ => undefined
  | _, .nan => undefined
  | .infinite _, _ => undefined
  | .finite .., .infinite _ => v
  | .finite negative m p, .finite _ n q =>
    if n = 0 then undefined
    else
      let step := min p q
      let rest := m * Nat.pow 2 (p - step).toNat % (n * Nat.pow 2 (q - step).toNat)
      nearestScaled negative rest step

end Binary64

end Reckon
