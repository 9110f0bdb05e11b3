/-!
# Sets of characters

A set of characters given by the ranges of their code points, in order.
The tables of Unicode properties have this form.
-/

namespace Reckon.Text

/-- **A set of characters**: the first and the last code point of each
range. -/
abbrev Ranges : Type := List (Nat × Nat)

/-- Is the character in one of the ranges? -/
def Ranges.mem (rs : Ranges) (c : Char) : Bool :=
  rs.any fun r => r.1 ≤ c.toNat && c.toNat ≤ r.2

end Reckon.Text
