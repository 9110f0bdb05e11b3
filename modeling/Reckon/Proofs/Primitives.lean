import Reckon.Literal
import Reckon.Proofs.Zeros

/-!
# Operations that can raise

Quotient, remainder and power of doubles do not always answer: where the
standard gives an infinity or no number, a host language may raise an error
instead, and so may its reader of decimals. `Primitives` is such operations,
about which nothing is known but which errors they raise. An operator catches
the errors of its operation and answers for it (`Primitives.apply`).

That is enough for an arithmetic (`Guarded`): no error is left over
(`Primitives.apply_eq`). What its numbers are depends on the operations.
`Primitives.standard` raises where operations usually do, and what the
operators make of it are the doubles (`Primitives.computesDoubles_standard`).
-/

namespace Reckon

open Binary64

/-- **What an operation raises** when it has no answer. -/
inductive Trap where
  | zeroDivision
  | value
  | overflow
deriving Repr, DecidableEq

/-- **Operations on doubles that can raise**, each only the errors that it is
documented to raise. -/
structure Primitives where
  div : Float → Float → Except Trap Float
  /-- The remainder of a division, with the sign of the dividend. -/
  rem : Float → Float → Except Trap Float
  pow : Float → Float → Except Trap Float
  eq_of_div_raises : ∀ {v b t}, div v b = .error t → t = .zeroDivision
  eq_of_rem_raises : ∀ {v b t}, rem v b = .error t → t = .value
  eq_of_pow_raises : ∀ {v b t}, pow v b = .error t → t = .value ∨ t = .overflow

/-! ## What is answered for an error -/

/-- A magnitude with the sign of `x`. -/
def copySign (magnitude x : Float) : Float :=
  if (ofFloat x).isNegative then -magnitude else magnitude

/-- The quotient by a zero. -/
def divisionByZero (v b : Float) : Float :=
  if v == 0 || v.isNaN then undefined else copySign (infinity false) v * copySign 1 b

/-- A power beyond every finite double. -/
def overflowingPower (v b : Float) : Float :=
  if decide (v < 0) && (ofFloat b).isOdd then infinity true else infinity false

/-- A power that is no finite number for another reason: a pole at zero, or a
fractional power of a negative number. -/
def undefinedPower (v b : Float) : Float :=
  if v == 0 && decide (b < 0) then
    if (ofFloat b).isOdd then copySign (infinity false) v else infinity false
  else undefined

namespace Primitives

variable (P : Primitives)

/-- The quotient; a division by zero is answered for. -/
def divide (v b : Float) : Except Trap Float :=
  (P.div v b).tryCatch fun
    | .zeroDivision => .ok (divisionByZero v b)
    | t => .error t

/-- The remainder; where there is none, it is undefined. -/
def remainder (v b : Float) : Except Trap Float :=
  (P.rem v b).tryCatch fun
    | .value => .ok undefined
    | t => .error t

/-- The power; an overflow and a power that is undefined are answered for. -/
def power (v b : Float) : Except Trap Float :=
  (P.pow v b).tryCatch fun
    | .overflow => .ok (overflowingPower v b)
    | .value => .ok (undefinedPower v b)
    | t => .error t

/-- What an operation comes to if nothing is left of its errors. -/
def answer (r : Except Trap Float) : Float :=
  r.toOption.getD undefined

/-- **The doubles under these operations.** -/
def Guarded (_ : Primitives) : Type := Float

/-- **Applies an operator.** Sum, difference and product raise nothing. -/
def apply (o : Operator) (v b : P.Guarded) : Except Trap P.Guarded :=
  match o with
  | .add => .ok (Float.add v b)
  | .sub => .ok (Float.sub v b)
  | .mul => .ok (Float.mul v b)
  | .div => P.divide v b
  | .mod => P.remainder v b
  | .pow => P.power v b

instance : Arithmetic P.Guarded where
  zero := Binary64.zero false
  one := (1 : Float)
  minusOne := (-1 : Float)
  undefined := Binary64.undefined
  add := Float.add
  sub := Float.sub
  mul := Float.mul
  div v b := answer (P.divide v b)
  rem v b := answer (P.remainder v b)
  pow v b := answer (P.power v b)
  ofDecimal := Binary64.ofDecimal false

/-- What is caught and answered for is an answer. -/
theorem tryCatch_eq_answer {r : Except Trap Float} {handle : Trap → Except Trap Float}
    (h : ∀ t, r = .error t → ∃ x, handle t = .ok x) :
    r.tryCatch handle = .ok (answer (r.tryCatch handle)) := by
  cases hr : r with
  | ok x => rfl
  | error t =>
    obtain ⟨x, hx⟩ := h t hr
    show handle t = .ok (answer (handle t))
    rw [hx]
    rfl

theorem divide_eq (v b : Float) : P.divide v b = .ok (answer (P.divide v b)) := by
  refine tryCatch_eq_answer fun t ht => ?_
  obtain rfl := P.eq_of_div_raises ht
  exact ⟨_, rfl⟩

theorem remainder_eq (v b : Float) : P.remainder v b = .ok (answer (P.remainder v b)) := by
  refine tryCatch_eq_answer fun t ht => ?_
  obtain rfl := P.eq_of_rem_raises ht
  exact ⟨_, rfl⟩

theorem power_eq (v b : Float) : P.power v b = .ok (answer (P.power v b)) := by
  refine tryCatch_eq_answer fun t ht => ?_
  obtain rfl | rfl := P.eq_of_pow_raises ht
  · exact ⟨_, rfl⟩
  · exact ⟨_, rfl⟩

/-- **No error of an operation gets through its operator.** -/
theorem apply_eq (o : Operator) (v b : P.Guarded) : P.apply o v b = .ok (o.apply v b) := by
  cases o with
  | add | sub | mul => rfl
  | div => exact P.divide_eq v b
  | mod => exact P.remainder_eq v b
  | pow => exact P.power_eq v b

/-! ## Reading decimals -/

/-- **The number that a run of digits and points denotes.** A malformed run is
an error. -/
def float (run : List Char) : Except Trap Float :=
  match Decimal.ofRun? run with
  | some d => .ok (Binary64.ofDecimal false d)
  | none => .error .value

/-- **The value of a literal**: its sign times the number of its run, and
undefined if there is none. -/
def literal (l : Literal) : Except Trap P.Guarded :=
  ((fun x => (if l.negative then -1 else 1) * x) <$> float l.run).tryCatch fun
    | .value => .ok undefined
    | t => .error t

/-- No error of reading gets through to a literal. -/
theorem literal_eq (l : Literal) : P.literal l = .ok l.value := by
  unfold literal float Literal.value Literal.decimal?
  cases Decimal.ofRun? l.run with
  | none => rfl
  | some d => cases l.negative <;> rfl

end Primitives

/-! ## The usual operations -/

namespace Binary64

open Float.Model (Format UnpackedFloat)
open Float.Model.UnpackedFloat

/-- The sign of an unpacked number is its first bit. -/
theorem sign_eq_of_unpack {w : BitVec Format.binary64.numBits} {s : Sign} {m : Nat} {e : Int}
    {hm : 0 < m} (h : UnpackedFloat.unpack Format.binary64 w = .finite s m e hm) :
    unpackExponent w ≠ -1#_ ∧ s = Sign.ofBitVec (unpackSign w) := by
  unfold UnpackedFloat.unpack at h
  dsimp only at h
  split at h
  · split at h <;> cases h
  · rename_i hexponent
    refine ⟨hexponent, ?_⟩
    split at h
    · split at h
      · cases h
      · exact (UnpackedFloat.finite.inj h).1.symm
    · exact (UnpackedFloat.finite.inj h).1.symm

/-- The sign of a word is negative if its sign bit is set. -/
theorem ofBitVec_unpackSign_beq (w : BitVec Format.binary64.numBits) :
    (Sign.ofBitVec (unpackSign w) == .negative) = decide (signBit ≤ w.toNat) := by
  have hlt : w.toNat < 2 ^ 64 := w.isLt
  have hone := toNat_unpackSign w
  have hweight : signBit = 2 ^ 63 := rfl
  rw [Sign.ofBitVec, hweight]
  split
  · rename_i hzero
    rw [hzero, BitVec.toNat_zero] at hone
    refine (decide_eq_false ?_).symm
    omega
  · rename_i hzero
    refine (decide_eq_true ?_).symm
    have hne : w.toNat / 2 ^ 63 % 2 ≠ 0 := fun h =>
      hzero (BitVec.eq_of_toNat_eq (hone.trans h))
    omega

/-- **A finite number that is not zero** has the sign that the library gives it. -/
theorem ofFloat_of_unpack {x : Float} {s : Sign} {m : Nat} {e : Int} {hm : 0 < m}
    (h : x.toModel.unpack = .finite s m e hm) :
    ∃ k q, ofFloat x = .finite (s == .negative) k q := by
  obtain ⟨hexponent, rfl⟩ := sign_eq_of_unpack h
  have hfield : x.toBits.toNat / Nat.pow 2 52 % Nat.pow 2 11 ≠ 2047 := by
    intro hfull
    refine hexponent (BitVec.eq_of_toNat_eq ?_)
    rw [toNat_unpackExponent]
    exact hfull
  rw [ofBitVec_unpackSign_beq, ofFloat, ofBits]
  simp only [hfield, if_false]
  split
  · exact ⟨_, _, rfl⟩
  · exact ⟨_, _, rfl⟩

/-- What is equal to zero is a zero of either sign. -/
theorem exists_eq_zero {x : Float} (h : (x == 0) = true) : ∃ s, x = zero s := by
  rcases same_iff.mp (.inl h) with rfl | ⟨s, rfl, _⟩
  · exact ⟨false, by decide +kernel⟩
  · exact ⟨s, rfl⟩

/-- A finite number that is not zero is not equal to it. -/
theorem beq_zero_of_unpack {x : Float} {s : Sign} {m : Nat} {e : Int} {hm : 0 < m}
    (h : x.toModel.unpack = .finite s m e hm) : (x == 0) = false := by
  rw [← Bool.not_eq_true]
  intro hzero
  obtain ⟨t, rfl⟩ := exists_eq_zero hzero
  exact absurd ((unpack_zero t).symm.trans h) nofun

/-- A number below zero is finite or an infinity, with its sign bit set. -/
theorem unpack_of_lt_zero {x : Float} (h : x < 0) :
    x = infinity true ∨ ∃ m e hm, x.toModel.unpack = .finite .negative m e hm := by
  have hx : (⟨Float.Model.pack x.toModel.unpack⟩ : Float) = x := Float.ofBits_toBits x
  have hzero : (0 : Float) = zero false := by decide +kernel
  rw [hzero] at h
  have hlt : x.toModel.unpack.lt (.zero .positive) = true := of_decide_eq_true h
  generalize x.toModel.unpack = u at hx hlt
  cases u with
  | notANumber => exact absurd hlt (by decide)
  | zero s => exact absurd hlt (by cases s <;> decide)
  | infinity s =>
    cases s with
    | positive => exact absurd hlt (by decide)
    | negative => exact .inl hx.symm
  | finite s m e hm =>
    cases s with
    | positive => exact absurd hlt (by simp [UnpackedFloat.lt, UnpackedFloat.compare])
    | negative => exact .inr ⟨m, e, hm, rfl⟩

end Binary64

namespace Primitives

/-- **Do the operators compute what they compute on doubles?** -/
def ComputesDoubles (P : Primitives) : Prop :=
  ∀ (o : Operator) (v b : Float), P.apply o v b = .ok (o.apply (α := Float) v b)

/-- **The usual operations.** A quotient by zero raises, and so does a remainder
that is undefined though both operands are numbers; a power of finite numbers
raises at a pole, where it is undefined, and where it overflows. -/
def standard : Primitives where
  div v b := if b == 0 then .error .zeroDivision else .ok (v / b)
  rem v b :=
    if (Binary64.remainder v b).isNaN && !v.isNaN && !b.isNaN then .error .value
    else .ok (Binary64.remainder v b)
  pow v b :=
    if v.isFinite && b.isFinite then
      if v == 0 && decide (b < 0) then .error .value
      else if (Binary64.power v b).isNaN then .error .value
      else if Binary64.power v b = overflowingPower v b then .error .overflow
      else .ok (Binary64.power v b)
    else .ok (Binary64.power v b)
  eq_of_div_raises := by
    intro v b t h
    split at h
    · exact (Except.error.inj h).symm
    · cases h
  eq_of_rem_raises := by
    intro v b t h
    split at h
    · exact (Except.error.inj h).symm
    · cases h
  eq_of_pow_raises := by
    intro v b t h
    split at h
    · split at h
      · exact .inl (Except.error.inj h).symm
      · split at h
        · exact .inl (Except.error.inj h).symm
        · split at h
          · exact .inr (Except.error.inj h).symm
          · cases h
    · cases h

/-- Division by a zero is what the standard has it to be. -/
theorem divisionByZero_eq (v : Float) (s : Bool) : divisionByZero v (zero s) = v / zero s := by
  have hv : (⟨Float.Model.pack v.toModel.unpack⟩ : Float) = v := Float.ofBits_toBits v
  cases hu : v.toModel.unpack with
  | notANumber =>
    rw [hu] at hv
    obtain rfl : undefined = v := hv
    cases s <;> decide +kernel
  | zero t =>
    rw [hu] at hv
    subst hv
    cases s <;> cases t <;> decide +kernel
  | infinity t =>
    rw [hu] at hv
    subst hv
    cases s <;> cases t <;> decide +kernel
  | finite t m e hm =>
    -- The two signs decide, and neither operand is looked at further.
    obtain ⟨k, q, hof⟩ := ofFloat_of_unpack hu
    have hnegative : (ofFloat v).isNegative = (t == .negative) := congrArg isNegative hof
    have hsign : (ofFloat (zero s)).isNegative = s := congrArg isNegative (ofFloat_zero s)
    have hzero := beq_zero_of_unpack hu
    have hnan : v.isNaN = false := by
      rw [← Bool.not_eq_true, isNaN_iff]
      rintro rfl
      exact absurd (unpack_undefined.symm.trans hu) nofun
    have hquotient : v / zero s = (⟨Float.Model.pack (.infinity (t / signOf s))⟩ : Float) := by
      show (⟨Float.Model.pack (Float.Model.UnpackedFloat.div _ v.toModel.unpack _)⟩ : Float) = _
      rw [hu, unpack_zero]
      rfl
    rw [divisionByZero, hzero, hnan, hquotient, copySign, copySign, hnegative, hsign]
    cases s <;> cases t <;> decide +kernel

/-- **A quotient that raises at a zero only** is answered for. -/
theorem divide_of_div {P : Primitives} {v b : Float}
    (h : P.div v b = if b == 0 then .error .zeroDivision else .ok (v / b)) :
    P.divide v b = .ok (v / b) := by
  unfold divide
  rw [h]
  split
  · rename_i hb
    obtain ⟨s, rfl⟩ := exists_eq_zero hb
    exact congrArg Except.ok (divisionByZero_eq v s)
  · rfl

/-- **A remainder that raises where two numbers have none** is answered for. -/
theorem remainder_of_rem {P : Primitives} {v b r : Float}
    (h : P.rem v b = if r.isNaN && !v.isNaN && !b.isNaN then .error .value else .ok r) :
    P.remainder v b = .ok r := by
  unfold remainder
  rw [h]
  split
  · rename_i hnan
    rw [Bool.and_eq_true, Bool.and_eq_true] at hnan
    exact congrArg Except.ok (isNaN_iff.mp hnan.1.1).symm
  · rfl

theorem standard_divide (v b : Float) : standard.divide v b = .ok (v / b) :=
  divide_of_div rfl

theorem standard_remainder (v b : Float) :
    standard.remainder v b = .ok (Binary64.remainder v b) :=
  remainder_of_rem rfl

/-- A pole is what the standard has it to be. -/
theorem undefinedPower_of_pole {v b : Float} (hv : (v == 0) = true) (hb : b < 0) :
    undefinedPower v b = Binary64.power v b := by
  obtain ⟨s, rfl⟩ := exists_eq_zero hv
  have hsign : (ofFloat (zero s)).isNegative = s := congrArg isNegative (ofFloat_zero s)
  have hexponent : (b == 0) = false ∧ ofFloat b ≠ .nan ∧ (ofFloat b).isNegative = true := by
    rcases unpack_of_lt_zero hb with rfl | ⟨m, e, hm, hu⟩
    · exact ⟨by decide +kernel, by decide +kernel, by decide +kernel⟩
    · obtain ⟨k, q, hof⟩ := ofFloat_of_unpack hu
      exact ⟨beq_zero_of_unpack hu, hof ▸ nofun, congrArg isNegative hof⟩
  obtain ⟨hzero, hnan, hnegative⟩ := hexponent
  rw [undefinedPower, hv, decide_eq_true hb, power_zero s hzero, if_neg hnan, powerOfZero, hnegative,
    copySign, hsign]
  cases s <;> cases (ofFloat b).isOdd <;> decide +kernel

theorem standard_power (v b : Float) : standard.power v b = .ok (Binary64.power v b) := by
  unfold power standard
  dsimp only
  split
  · split
    · rename_i h
      rw [Bool.and_eq_true, decide_eq_true_eq] at h
      exact congrArg Except.ok (undefinedPower_of_pole h.1 h.2)
    · rename_i hpole
      split
      · rename_i hnan
        refine congrArg Except.ok ?_
        rw [undefinedPower, if_neg hpole]
        exact (isNaN_iff.mp hnan).symm
      · split
        · rename_i hoverflow
          exact congrArg Except.ok hoverflow.symm
        · rfl
  · rfl

/-- **The operators over the usual operations compute what they compute on
doubles.** -/
theorem computesDoubles_standard : standard.ComputesDoubles := by
  intro o v b
  cases o with
  | add | sub | mul => rfl
  | div => exact standard_divide v b
  | mod => exact standard_remainder v b
  | pow => exact standard_power v b

end Primitives

end Reckon
