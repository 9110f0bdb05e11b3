import Mathlib
import Reckon.Proofs.Undefined

/-!
# Doubles up to the sign of a zero

The sum of an expression starts from a zero, and adding a number to it gives
the number back – only a negative zero loses its sign. So two ways to compute
the same thing may end in zeros of different signs, and `Binary64.Same` is the
relation that does not tell these apart: the two compare as equal, or neither
is a number.

It is almost a congruence. Every operator takes left operands that are the same
to results that are the same, with one exception: a zero under a negative odd
exponent is an infinity whose sign is that of the zero
(`Operator.same_apply_left`).
-/

namespace Reckon

open Float.Model (Format UnpackedFloat)
open Float.Model.UnpackedFloat

namespace Binary64

/-- **Two doubles are the same number**: they compare as equal, or neither of
them is a number. -/
def Same (x y : Float) : Prop :=
  (x == y) = true ∨ (x.isNaN = true ∧ y.isNaN = true)

instance (x y : Float) : Decidable (Same x y) :=
  inferInstanceAs (Decidable (_ ∨ _))

/-- **The two zeros are all that the relation identifies.** -/
theorem same_iff {x y : Float} :
    Same x y ↔ x = y ∨ ∃ negative, x = zero negative ∧ y = zero !negative := by
  have hpositive : (0 : Float) = zero false := by decide +kernel
  have hnegative : -zero false = zero true := by decide +kernel
  have hundefined : Float.nan = undefined := by decide +kernel
  rw [Same, Float.beq_iff_ne_nan_and_eq, isNaN_iff, isNaN_iff, hpositive, hnegative, hundefined]
  constructor
  · rintro (⟨_, _, h | h | h⟩ | ⟨hx, hy⟩)
    · exact .inl h
    · exact .inr ⟨false, h⟩
    · exact .inr ⟨true, h⟩
    · exact .inl (hx.trans hy.symm)
  · rintro (rfl | ⟨negative, rfl, rfl⟩)
    · by_cases h : x = undefined
      · exact .inr ⟨h, h⟩
      · exact .inl ⟨h, h, .inl rfl⟩
    · refine .inl ?_
      cases negative with
      | false => exact ⟨by decide +kernel, by decide +kernel, .inr (.inl ⟨rfl, rfl⟩)⟩
      | true => exact ⟨by decide +kernel, by decide +kernel, .inr (.inr ⟨rfl, rfl⟩)⟩

namespace Same

variable {x y z : Float}

theorem refl (x : Float) : Same x x :=
  same_iff.mpr (.inl rfl)

theorem of_eq (h : x = y) : Same x y :=
  same_iff.mpr (.inl h)

/-- The undefined double is the same as itself only. -/
theorem undefined_iff : Same undefined x ↔ x.isNaN = true := by
  refine ⟨fun h => ?_, fun h => .inr ⟨isNaN_undefined, h⟩⟩
  rcases same_iff.mp h with rfl | ⟨s, h, _⟩
  · exact isNaN_undefined
  · cases s <;> exact absurd h (by decide +kernel)

/-- Zeros are the same number, whatever their signs. -/
theorem zeros (s t : Bool) : Same (zero s) (zero t) := by
  rw [same_iff]
  cases s <;> cases t
  · exact .inl rfl
  · exact .inr ⟨false, rfl, rfl⟩
  · exact .inr ⟨true, rfl, rfl⟩
  · exact .inl rfl

theorem symm (h : Same x y) : Same y x := by
  rcases same_iff.mp h with rfl | ⟨s, rfl, rfl⟩
  · exact refl _
  · exact zeros _ _

theorem trans (hxy : Same x y) (hyz : Same y z) : Same x z := by
  rcases same_iff.mp hxy with rfl | ⟨s, rfl, rfl⟩
  · exact hyz
  · rcases same_iff.mp hyz with rfl | ⟨t, _, rfl⟩
    · exact zeros _ _
    · exact zeros _ _

end Same

/-! ## A zero as left operand -/

/-- The sign that the library gives a zero. -/
def signOf (negative : Bool) : Sign :=
  if negative then .negative else .positive

theorem unpack_zero (negative : Bool) :
    (zero negative).toModel.unpack = .zero (signOf negative) := by
  cases negative <;> rfl

theorem pack_zero (s : Sign) : ∃ negative, (⟨Float.Model.pack (.zero s)⟩ : Float) = zero negative := by
  cases s with
  | negative => exact ⟨true, rfl⟩
  | positive => exact ⟨false, rfl⟩

theorem ofFloat_zero (negative : Bool) :
    ofFloat (zero negative) = .finite negative 0 leastExponent := by
  cases negative <;> decide +kernel

/-- **An operation does not care about the sign of a zero**: whatever the right
operand is, both zeros on the left give the same result, or zeros again. -/
def IgnoresSign (op : UnpackedFloat → UnpackedFloat → UnpackedFloat) : Prop :=
  ∀ s t u, op (.zero s) u = op (.zero t) u
    ∨ ∃ s' t', op (.zero s) u = .zero s' ∧ op (.zero t) u = .zero t'

theorem ignoresSign_add : IgnoresSign (UnpackedFloat.add Format.binary64) := by
  rintro s t (u | _ | u | ⟨u, m, e, hm⟩)
  · exact .inl rfl
  · exact .inl rfl
  · refine .inr ?_
    cases s <;> cases t <;> cases u <;> exact ⟨_, _, rfl, rfl⟩
  · exact .inl rfl

theorem ignoresSign_sub : IgnoresSign (UnpackedFloat.sub Format.binary64) := by
  rintro s t (u | _ | u | ⟨u, m, e, hm⟩)
  · exact .inl rfl
  · exact .inl rfl
  · refine .inr ?_
    cases s <;> cases t <;> cases u <;> exact ⟨_, _, rfl, rfl⟩
  · exact .inl rfl

theorem ignoresSign_mul : IgnoresSign (UnpackedFloat.mul Format.binary64) := by
  rintro s t (u | _ | u | ⟨u, m, e, hm⟩)
  · exact .inl rfl
  · exact .inl rfl
  · exact .inr ⟨_, _, rfl, rfl⟩
  · exact .inr ⟨_, _, rfl, rfl⟩

theorem ignoresSign_div : IgnoresSign (UnpackedFloat.div Format.binary64) := by
  rintro s t (u | _ | u | ⟨u, m, e, hm⟩)
  · exact .inr ⟨_, _, rfl, rfl⟩
  · exact .inl rfl
  · exact .inl rfl
  · exact .inr ⟨_, _, rfl, rfl⟩

/-- Zeros on the left of such an operation give results that are the same. -/
theorem IgnoresSign.same {op : UnpackedFloat → UnpackedFloat → UnpackedFloat}
    (hop : IgnoresSign op) (s t : Bool) (b : Float) :
    Same ⟨Float.Model.pack (op (zero s).toModel.unpack b.toModel.unpack)⟩
      ⟨Float.Model.pack (op (zero t).toModel.unpack b.toModel.unpack)⟩ := by
  rw [unpack_zero, unpack_zero]
  rcases hop (signOf s) (signOf t) b.toModel.unpack with h | ⟨s', t', hs, ht⟩
  · exact .of_eq (by rw [h])
  · obtain ⟨p, hp⟩ := pack_zero s'
    obtain ⟨q, hq⟩ := pack_zero t'
    rw [hs, ht, hp, hq]
    exact .zeros p q

theorem same_remainder_zero (s t : Bool) (b : Float) :
    Same (remainder (zero s) b) (remainder (zero t) b) := by
  unfold remainder
  rw [ofFloat_zero, ofFloat_zero]
  cases ofFloat b with
  | nan => exact .refl _
  | infinite negative => exact .zeros s t
  | finite negative n q =>
    dsimp only
    by_cases hn : n = 0
    · rw [if_pos hn, if_pos hn]
      exact .refl _
    · rw [if_neg hn, if_neg hn, Nat.zero_mul, Nat.zero_mod]
      -- Nothing is left of a zero, on whichever step it is taken.
      have hrest (negative : Bool) (step : Int) : nearestScaled negative 0 step = zero negative := by
        unfold nearestScaled
        split
        · rw [Nat.zero_mul]
          rfl
        · rfl
      rw [hrest, hrest]
      exact .zeros s t

/-- **Does a zero keep its sign under this exponent?** A negative odd exponent
makes an infinity of it that has its sign. -/
def isOddPole (b : Float) : Bool :=
  (ofFloat b).isOdd && (ofFloat b).isNegative

theorem power_zero (s : Bool) {b : Float} (hb : (b == 0) = false) :
    power (zero s) b
      = if ofFloat b = .nan then undefined else powerOfZero s (ofFloat b) := by
  have hone : (zero s == 1) = false := by cases s <;> decide +kernel
  unfold power
  rw [hb, hone, ofFloat_zero]
  generalize ofFloat b = e
  cases e with
  | nan => rfl
  | infinite negative => rfl
  | finite negative m e => rfl

theorem same_powerOfZero (s t : Bool) {e : Binary64} (h : (e.isOdd && e.isNegative) = false) :
    Same (powerOfZero s e) (powerOfZero t e) := by
  unfold powerOfZero
  cases hnegative : e.isNegative with
  | false => exact .zeros _ _
  | true =>
    rw [hnegative, Bool.and_true] at h
    rw [h, Bool.and_false, Bool.and_false]
    exact .refl _

theorem same_power_zero (s t : Bool) {b : Float} (h : isOddPole b = false) :
    Same (power (zero s) b) (power (zero t) b) := by
  cases hb : b == 0 with
  | true =>
    have hone (v : Float) : power v b = 1 := if_pos hb
    rw [hone, hone]
    exact .refl 1
  | false =>
    rw [power_zero s hb, power_zero t hb]
    split
    · exact .refl _
    · exact same_powerOfZero s t h

end Binary64

open Binary64

/-- **The same left operands give the same results**, unless the operator is a
power that tells the zeros apart. -/
theorem Operator.same_apply_left {o : Operator} {v w b : Float} (h : Same v w)
    (hpole : o = .pow → isOddPole b = false) : Same (o.apply v b) (o.apply w b) := by
  rcases same_iff.mp h with rfl | ⟨s, rfl, rfl⟩
  · exact .refl _
  · cases o with
    | add => exact ignoresSign_add.same _ _ b
    | sub => exact ignoresSign_sub.same _ _ b
    | mul => exact ignoresSign_mul.same _ _ b
    | div => exact ignoresSign_div.same _ _ b
    | mod => exact same_remainder_zero _ _ b
    | pow => exact same_power_zero _ _ (hpole rfl)

namespace Binary64

/-! ## A zero in a sum -/

/-- **A sum that starts from zero gives the number back.** -/
theorem same_zero_add (x : Float) : Same (zero false + x) x := by
  have hx : (⟨Float.Model.pack x.toModel.unpack⟩ : Float) = x := Float.ofBits_toBits x
  show Same ⟨Float.Model.pack (UnpackedFloat.add Format.binary64 (.zero .positive)
    x.toModel.unpack)⟩ x
  generalize x.toModel.unpack = u at hx ⊢
  cases u with
  | infinity s => exact .of_eq hx
  | notANumber => exact .of_eq hx
  | finite s m e hm => exact .of_eq hx
  | zero s =>
    cases s with
    | positive => exact .of_eq hx
    | negative => exact hx ▸ Same.zeros false true

theorem add_zero_comm (x : Float) (s : Bool) : x + zero s = zero s + x := by
  have hunpacked (u : UnpackedFloat) (t : Sign) :
      UnpackedFloat.add Format.binary64 u (.zero t) = .add Format.binary64 (.zero t) u := by
    cases u with
    | infinity r => rfl
    | notANumber => rfl
    | finite r m e hm => rfl
    | zero r => cases r <;> cases t <;> rfl
  refine congrArg (fun u => (⟨Float.Model.pack u⟩ : Float)) ?_
  rw [unpack_zero]
  exact hunpacked _ _

/-- **The same numbers have the same sums.** -/
theorem Same.add {v w x y : Float} (hv : Same v w) (hx : Same x y) : Same (v + x) (w + y) := by
  refine (Operator.same_apply_left (o := .add) hv nofun).trans ?_
  rcases same_iff.mp hx with rfl | ⟨s, rfl, rfl⟩
  · exact .refl _
  · show Same (w + zero s) (w + zero !s)
    rw [add_zero_comm, add_zero_comm]
    exact ignoresSign_add.same _ _ w

end Binary64

end Reckon
