import Reckon.Proofs.Nearest
import Reckon.Proofs.Primitives

/-!
# One and minus one as factors

A number is given its sign by a product with one or with minus one. A product
of doubles is rounded, so that it is not evident that such a product is the
other factor, or its opposite, and nothing else.

The significand of one has zeros behind its first bit. The product of the
significands is therefore that of the other factor with zeros behind it, on a
finer step, and the rounding shifts them out again. It goes back to the step
that it came from, and not to another, because the significand of a double is a
normal form already. What is left of the factor is its sign.
-/

namespace Reckon

namespace Binary64

open Float.Model (Format UnpackedFloat totalExponent)
open Float.Model.UnpackedFloat

/-! ## The significand of a double -/

/-- **What is unpacked is a normal form.** -/
theorem isNormalForm_of_unpack {w : BitVec Format.binary64.numBits} {s : UnpackedFloat.Sign}
    {m : Nat} {e : Int} {hm : 0 < m}
    (h : UnpackedFloat.unpack Format.binary64 w = .finite s m e hm) : IsNormalForm m e := by
  obtain ⟨hexponent, _⟩ := sign_eq_of_unpack h
  have hleast : leastExponent = -1074 := rfl
  have hbias : ((Format.binary64.exponentBias : Nat) : Int) = 1023 := rfl
  have hfraction : (unpackMantissa w).toNat < 2 ^ 52 := (unpackMantissa w).isLt
  unfold UnpackedFloat.unpack at h
  dsimp only at h
  rw [if_neg hexponent, hbias] at h
  split at h
  · rename_i hzero
    split at h
    · cases h
    obtain ⟨_, rfl, rfl⟩ := UnpackedFloat.finite.inj h
    have hfield : (unpackExponent w).toNat = 0 := congrArg BitVec.toNat hzero
    exact ⟨by omega, by omega, .inr (by omega)⟩
  · rename_i hzero
    obtain ⟨_, rfl, rfl⟩ := UnpackedFloat.finite.inj h
    have hfield : 0 < (unpackExponent w).toNat :=
      Nat.pos_of_ne_zero fun hfield => hzero (BitVec.eq_of_toNat_eq hfield)
    have hsignificand : (1#1 ++ unpackMantissa w).toNat = 2 ^ 52 + (unpackMantissa w).toNat := by
      rw [BitVec.toNat_append, Nat.shiftLeft_eq]
      show 2 ^ 52 * 1 ||| (unpackMantissa w).toNat = _
      rw [← Nat.two_pow_add_eq_or_of_lt hfraction, Nat.mul_one]
    rw [hsignificand]
    exact ⟨by omega, by omega, .inl (by omega)⟩

variable {m : Nat} {e : Int}

/-- Zeros behind a significand leave its step where it was. -/
theorem IsNormalForm.targetExponent_eq (h : IsNormalForm m e) (hm : 0 < m) (k : Nat) :
    Format.binary64.targetExponent (totalExponent (2 ^ k * m) (e - k)) = e := by
  obtain ⟨hlt, hleast, hnormal⟩ := h
  have hhigh : m.log2 < 53 := (Nat.log2_lt (Nat.ne_of_gt hm)).mpr hlt
  have hlow : 2 ^ 52 ≤ m → 52 ≤ m.log2 := (Nat.le_log2 (Nat.ne_of_gt hm)).mpr
  have hlog : (2 ^ k * m).log2 = m.log2 + k := by
    induction k with
    | zero => rw [Nat.pow_zero, Nat.one_mul, Nat.add_zero]
    | succ k ih =>
      have hne : 2 ^ k * m ≠ 0 := Nat.ne_of_gt (Nat.mul_pos (Nat.two_pow_pos k) hm)
      rw [Nat.pow_succ', Nat.mul_assoc, Nat.log2_two_mul hne, ih, Nat.add_assoc]
  rw [leastExponent] at hleast hnormal
  rw [Format.targetExponent, totalExponent, hlog]
  show max (((m.log2 + k : Nat) : Int) + 1 + (e - k) - 53) (-1074) = e
  omega

/-! ## Rounding -/

/-- Zeros behind a significand are shifted out without a trace. -/
theorem shiftRight_two_pow_mul (k m : Nat) :
    (⟨2 ^ k * m, false, false⟩ : ExtendedMantissa) >>> k = ⟨m, false, false⟩ := by
  show Nat.repeat ExtendedMantissa.shiftRightOne k _ = _
  induction k generalizing m with
  | zero =>
    rw [Nat.pow_zero, Nat.one_mul]
    rfl
  | succ k ih =>
    rw [Nat.repeat, Nat.pow_succ, Nat.mul_assoc, ih]
    simp [ExtendedMantissa.shiftRightOne]

/-- **A significand with zeros behind it is rounded to itself.** -/
theorem IsNormalForm.roundWithAccuracy_two_pow_mul (h : IsNormalForm m e) (hm : 0 < m)
    (s : UnpackedFloat.Sign) (k : Nat) :
    roundWithAccuracy Format.binary64 s (2 ^ k * m) (e - k) .exact = .finite s m e hm := by
  have hshift (j : Nat) : shiftToTargetExponent Format.binary64 (2 ^ j * m) (e - j) .exact
      = (⟨m, false, false⟩, e) := by
    have hj : (e - (e - j)).toNat = j := by omega
    rw [shiftToTargetExponent, h.targetExponent_eq hm, shiftToExponent, hj, Int.sub_add_cancel]
    exact congrArg (Prod.mk · e) (shiftRight_two_pow_mul j m)
  -- Nothing was rounded, and there is nothing to shift a second time.
  have hagain := hshift 0
  rw [Nat.pow_zero, Nat.one_mul, Int.natCast_zero, Int.sub_zero] at hagain
  rw [roundWithAccuracy, hshift]
  dsimp only
  rw [ExtendedMantissa.roundedMantissa, ExtendedMantissa.accuracy, Accuracy.roundToNearestEven,
    hagain]
  exact dif_neg (Nat.ne_of_gt hm)

/-! ## Products -/

/-- A factor that gives its sign, and nothing else. -/
def timesSign (s : UnpackedFloat.Sign) : UnpackedFloat → UnpackedFloat
  | .notANumber => .notANumber
  | .zero t => .zero (s * t)
  | .infinity t => .infinity (s * t)
  | .finite t m e hm => .finite (s * t) m e hm

/-- **A factor with the significand of one gives its sign**, and nothing else. -/
theorem mul_of_unpack {u x : Float} {s : UnpackedFloat.Sign}
    (hu : u.toModel.unpack = .finite s (2 ^ 52) (-52) (Nat.two_pow_pos 52)) :
    u * x = ⟨Float.Model.pack (timesSign s x.toModel.unpack)⟩ := by
  have hmul : UnpackedFloat.mul Format.binary64 u.toModel.unpack x.toModel.unpack
      = timesSign s x.toModel.unpack := by
    rw [hu]
    cases hx : x.toModel.unpack with
    | notANumber | zero t | infinity t => rfl
    | finite t m e hm =>
      show roundWithAccuracy Format.binary64 (s * t) (2 ^ 52 * m) (-52 + e) .exact = _
      rw [Int.add_comm]
      exact (isNormalForm_of_unpack hx).roundWithAccuracy_two_pow_mul hm (s * t) 52
  show (⟨Float.Model.pack (UnpackedFloat.mul _ _ _)⟩ : Float) = _
  rw [hmul]

/-- **One is neutral.** -/
protected theorem one_mul (x : Float) : 1 * x = x := by
  have hsign (u : UnpackedFloat) : timesSign .positive u = u := by
    cases u with
    | notANumber => rfl
    | zero t | infinity t | finite t m e hm => cases t <;> rfl
  rw [mul_of_unpack (s := .positive) rfl, hsign]
  exact Float.ofBits_toBits x

/-- **Minus one changes the sign.** -/
protected theorem minusOne_mul (x : Float) : -1 * x = -x := by
  have hsign (u : UnpackedFloat) : timesSign .negative u = u.neg := by
    cases u with
    | notANumber => rfl
    | zero t | infinity t | finite t m e hm => cases t <;> rfl
  rw [mul_of_unpack (s := .negative) rfl, hsign]
  rfl

/-- A number changes its sign and stays one. -/
theorem isNaN_neg (x : Float) : (-x).isNaN = x.isNaN := by
  show (Float.Model.pack x.toModel.unpack.neg).isNaN = x.toModel.unpack.isNaN
  rw [isNaN_pack]
  cases x.toModel.unpack <;> rfl

end Binary64

end Reckon
