import Mathlib
import Reckon.Binary64.Arithmetic

/-!
# The undefined double

Among the doubles there is one that is no number (`Binary64.isNaN_iff`), and
no written decimal denotes it. Sum, difference, product, quotient and
remainder are undefined as soon as an operand is. The power is the
exception: it answers one to an exponent of zero and to a base of one before
it looks at the other operand. `Operator.washes` says when it does so with an
undefined one, and there is no other way for an operator to lose it
(`Operator.isNaN_apply`).
-/

namespace Reckon

open Float.Model (Format UnpackedFloat)
open Float.Model.UnpackedFloat

namespace Binary64

/-! ## There is one undefined double -/

theorem isNaN_undefined : undefined.isNaN = true := by
  decide +kernel

/-- A bit pattern is no number if its exponent field is full and its fraction
is not zero. -/
theorem isNaN_unpack_iff (b : BitVec Format.binary64.numBits) :
    (UnpackedFloat.unpack Format.binary64 b).isNaN = true
      ↔ unpackExponent b = -1#_ ∧ unpackMantissa b ≠ 0#_ := by
  unfold UnpackedFloat.unpack
  by_cases hexponent : unpackExponent b = -1#_
  · by_cases hmantissa : unpackMantissa b = 0#_
    · rw [if_pos hexponent, if_pos hmantissa]
      exact iff_of_false Bool.false_ne_true fun h => h.2 hmantissa
    · rw [if_pos hexponent, if_neg hmantissa]
      exact iff_of_true rfl ⟨hexponent, hmantissa⟩
  · refine iff_of_false ?_ fun h => hexponent h.1
    rw [if_neg hexponent]
    by_cases hzero : unpackExponent b = 0#_
    · by_cases hmantissa : unpackMantissa b = 0#_
      · rw [if_pos hzero, dif_pos hmantissa]
        exact Bool.false_ne_true
      · rw [if_pos hzero, dif_neg hmantissa]
        exact Bool.false_ne_true
    · rw [if_neg hzero]
      exact Bool.false_ne_true

/-- **Only one double is no number.** -/
theorem isNaN_iff {x : Float} : x.isNaN = true ↔ x = undefined := by
  refine ⟨fun h => ?_, fun h => h ▸ isNaN_undefined⟩
  obtain ⟨⟨bits, valid⟩⟩ := x
  obtain ⟨hexponent, hmantissa⟩ := (isNaN_unpack_iff bits.toBitVec).mp h
  have hbits : bits = undefined.toBits := by
    rw [← UInt64.toBitVec_inj, valid.eq_packedNaN hexponent hmantissa]
    rfl
  subst hbits
  rfl

/-- Does a number of this exponent overflow when it is packed? -/
def Overflows (e : Int) : Prop :=
  2 ^ Format.binary64.exponentBits
    ≤ (e + Format.binary64.exponentBias + Format.binary64.mantissaBitsWithoutImplicit).toNat + 1

theorem pack_of_overflows {e : Int} (h : Overflows e) (s : Sign) (m : Nat) (hm : 0 < m) :
    UnpackedFloat.pack Format.binary64 (.finite s m e hm) = packedInfinity Format.binary64 s :=
  if_pos h

/-- Below an overflow the exponent field is not full. -/
theorem unpackExponent_pack_ne {e : Int} (h : ¬Overflows e) (s : Sign) (m : Nat) (hm : 0 < m) :
    unpackExponent (UnpackedFloat.pack Format.binary64 (.finite s m e hm)) ≠ -1#_ := by
  have hbits : 2 ^ Format.binary64.exponentBits = 2 ^ 11 := rfl
  rw [Overflows, hbits] at h
  unfold UnpackedFloat.pack
  dsimp only
  rw [hbits, if_neg h]
  split
  · rw [unpackExponent_packComponents]
    generalize (e + _ + _ : Int).toNat = field at h
    intro hfull
    have hfield : field % 2 ^ 11 = 2 ^ 11 - 1 := by
      have := congrArg BitVec.toNat hfull
      rwa [BitVec.toNat_ofNat] at this
    rw [Nat.mod_eq_of_lt (by omega)] at hfield
    omega
  · rw [unpackExponent_packComponents]
    decide

/-- **Packing keeps a number a number.** -/
theorem isNaN_pack (u : UnpackedFloat) : (Float.Model.pack u).isNaN = u.isNaN := by
  cases u with
  | notANumber => rfl
  | infinity s => cases s <;> rfl
  | zero s => cases s <;> rfl
  | finite s m e hm =>
    show (UnpackedFloat.unpack Format.binary64
      (UnpackedFloat.pack Format.binary64 (.finite s m e hm))).isNaN = false
    by_cases h : Overflows e
    · rw [pack_of_overflows h]
      cases s <;> rfl
    · rw [← Bool.not_eq_true, isNaN_unpack_iff]
      exact fun hnan => unpackExponent_pack_ne h s m hm hnan.1

/-! ## The fields of a word as numbers -/

theorem toNat_unpackSign (w : BitVec Format.binary64.numBits) :
    (unpackSign w).toNat = w.toNat / 2 ^ 63 % 2 := by
  rw [unpackSign, BitVec.toNat_cast, BitVec.extractLsb_toNat, Nat.shiftRight_eq_div_pow]
  rfl

theorem toNat_unpackExponent (w : BitVec Format.binary64.numBits) :
    (unpackExponent w).toNat = w.toNat / 2 ^ 52 % 2 ^ 11 := by
  rw [unpackExponent, BitVec.toNat_cast, BitVec.extractLsb_toNat, Nat.shiftRight_eq_div_pow]
  rfl

theorem toNat_unpackMantissa (w : BitVec Format.binary64.numBits) :
    (unpackMantissa w).toNat = w.toNat % 2 ^ 52 := by
  rw [unpackMantissa, BitVec.toNat_cast, BitVec.extractLsb_toNat, Nat.shiftRight_zero]
  rfl

/-! ## A decimal is a number -/

/-- A magnitude up to that of an infinity is a number under either sign. -/
theorem isNaN_withSign (negative : Bool) {m : Nat} (h : m ≤ infinityBits) :
    (withSign negative m).isNaN = false := by
  show (Float.Model.pack _).isNaN = false
  rw [isNaN_pack]
  generalize hw : (UInt64.ofNat (if negative then signBit + m else m)).toBitVec = w
  have hbits : w.toNat = if negative then 2 ^ 63 + m else m := by
    rw [← hw]
    show (if negative then signBit + m else m) % 2 ^ 64 = _
    have hsign : signBit = 2 ^ 63 := rfl
    rw [infinityBits] at h
    rw [hsign]
    split <;> omega
  -- A full exponent field leaves no room for a fraction below an infinity.
  rw [← Bool.not_eq_true, isNaN_unpack_iff]
  rintro ⟨hexponent, hmantissa⟩
  refine hmantissa (BitVec.eq_of_toNat_eq ?_)
  have hfull : w.toNat / 2 ^ 52 % 2 ^ 11 = 2 ^ 11 - 1 := by
    rw [← toNat_unpackExponent, hexponent]
    rfl
  rw [infinityBits] at h
  rw [toNat_unpackMantissa, BitVec.toNat_zero]
  cases negative with
  | false =>
    rw [if_neg Bool.false_ne_true] at hbits
    omega
  | true =>
    rw [if_pos rfl] at hbits
    omega

theorem nearestMagnitude_le (num den : Nat) : nearestMagnitude num den ≤ infinityBits := by
  unfold nearestMagnitude
  split
  · exact Nat.zero_le _
  · exact Nat.min_le_right _ _

theorem decimalMagnitude_le (d : Decimal) : decimalMagnitude d ≤ infinityBits := by
  unfold decimalMagnitude
  dsimp only
  split
  · exact Nat.zero_le _
  · split
    · exact Nat.le_refl _
    · split
      · exact Nat.zero_le _
      · split
        · exact nearestMagnitude_le ..
        · exact nearestMagnitude_le ..

/-- **Every decimal is a number**, an infinity if it is too large for a finite
one. -/
theorem isNaN_ofDecimal (negative : Bool) (d : Decimal) :
    (ofDecimal negative d).isNaN = false :=
  isNaN_withSign negative (decimalMagnitude_le d)

theorem isNaN_zero : (zero false).isNaN = false := by
  decide +kernel

theorem isNaN_one : (1 : Float).isNaN = false := by
  decide +kernel

theorem isNaN_minusOne : (-1 : Float).isNaN = false := by
  decide +kernel

/-! ## What the operations make of it -/

theorem unpack_undefined : undefined.toModel.unpack = .notANumber := rfl

theorem ofFloat_undefined : ofFloat undefined = .nan := by
  decide +kernel

/-- An operation on unpacked doubles that is no number if an operand is
none. -/
structure IsStrict (op : UnpackedFloat → UnpackedFloat → UnpackedFloat) : Prop where
  left (u : UnpackedFloat) : op .notANumber u = .notANumber
  right (u : UnpackedFloat) : op u .notANumber = .notANumber

theorem isStrict_add : IsStrict (UnpackedFloat.add Format.binary64) :=
  ⟨fun _ => rfl, fun u => by cases u <;> rfl⟩

theorem isStrict_sub : IsStrict (UnpackedFloat.sub Format.binary64) :=
  ⟨fun _ => rfl, fun u => by cases u <;> rfl⟩

theorem isStrict_mul : IsStrict (UnpackedFloat.mul Format.binary64) :=
  ⟨fun _ => rfl, fun u => by cases u <;> rfl⟩

theorem isStrict_div : IsStrict (UnpackedFloat.div Format.binary64) :=
  ⟨fun _ => rfl, fun u => by cases u <;> rfl⟩

/-- **A strict operation is undefined** as soon as an operand is. -/
theorem IsStrict.isNaN_pack {op : UnpackedFloat → UnpackedFloat → UnpackedFloat}
    (hop : IsStrict op) {v b : Float} (h : v.isNaN = true ∨ b.isNaN = true) :
    (Float.Model.pack (op v.toModel.unpack b.toModel.unpack)).isNaN = true := by
  rcases h with h | h
  · rw [isNaN_iff.mp h, unpack_undefined, hop.left]
    rfl
  · rw [isNaN_iff.mp h, unpack_undefined, hop.right]
    rfl

theorem isNaN_remainder {v b : Float} (h : v.isNaN = true ∨ b.isNaN = true) :
    (remainder v b).isNaN = true := by
  unfold remainder
  rcases h with h | h
  · rw [isNaN_iff.mp h, ofFloat_undefined]
    exact isNaN_undefined
  · rw [isNaN_iff.mp h, ofFloat_undefined]
    cases ofFloat v <;> exact isNaN_undefined

/-- **The power of an undefined operand** is one if the exponent is zero or
the base one, and undefined otherwise. -/
theorem isNaN_power {v b : Float} (h : v.isNaN = true ∨ b.isNaN = true) :
    (power v b).isNaN = !(b == 0 || v == 1) := by
  -- The two rules that answer one come before the operands are looked at.
  unfold power
  cases b == 0 with
  | true => exact isNaN_one
  | false =>
    cases v == 1 with
    | true => exact isNaN_one
    | false =>
      rcases h with h | h
      · rw [isNaN_iff.mp h, ofFloat_undefined]
        exact isNaN_undefined
      · rw [isNaN_iff.mp h, ofFloat_undefined]
        cases ofFloat v <;> exact isNaN_undefined

end Binary64

namespace Operator

/-- **Does the operator lose an undefined operand?** A power does under an
exponent of zero, and over a base of one. -/
def washes (o : Operator) (v b : Float) : Bool :=
  o == .pow && (v.isNaN || b.isNaN) && (b == 0 || v == 1)

/-- **An undefined operand makes the result undefined**, unless the operator
loses it. -/
theorem isNaN_apply (o : Operator) {v b : Float} (h : v.isNaN = true ∨ b.isNaN = true) :
    (o.apply v b).isNaN = !o.washes v b := by
  have hor : (v.isNaN || b.isNaN) = true := by
    rw [Bool.or_eq_true]
    exact h
  unfold washes
  rw [hor, Bool.and_true]
  cases o with
  | add => exact Binary64.isStrict_add.isNaN_pack h
  | sub => exact Binary64.isStrict_sub.isNaN_pack h
  | mul => exact Binary64.isStrict_mul.isNaN_pack h
  | div => exact Binary64.isStrict_div.isNaN_pack h
  | mod => exact Binary64.isNaN_remainder h
  | pow => exact Binary64.isNaN_power h

end Operator

end Reckon
