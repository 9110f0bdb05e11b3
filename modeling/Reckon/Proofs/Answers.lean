import Reckon.Proofs.Remainders

/-!
# Errors that are answered for with the result

A host computes quotients, remainders and powers as the floating-point standard
says, but where it could not go on with a finite number it may raise an error and
keep the result to itself. `Primitives.host` is such a host, over any remainder
and any power function: it raises at a zero divisor, where a remainder of two
numbers is none, at a pole of the power, where the power of finite numbers is no
number, and where it overflows.

The operators answer for each of these errors from the operands alone, and what
they answer is the result that was kept (`restores_results`). Of the power
function this needs only that an infinite power of finite numbers has the sign of
the standard, negative for a base with its sign bit set under an odd exponent
(`SignsInfinities`): there is one infinity left that it can be, and this is the
answer (`SignsInfinities.eq_infinitePower`). Of the remainder function it needs
that it is one, as odd exponents are told by a remainder (`Primitives.calculate`).

The operators on doubles have the same results without a host
(`Operator.apply_eq_result`). Their power has the signs of the standard if the
power of the library, which it asks about bases without a sign only, is never
below zero there (`signsInfinities_power`).
-/

namespace Reckon

open Binary64

/-- **The result of an operator** by the floating-point standard, over a remainder
and a power function. -/
def Operator.result (fmod pow : Float → Float → Float) : Operator → Float → Float → Float
  | .add => Float.add
  | .sub => Float.sub
  | .mul => Float.mul
  | .div => Float.div
  | .mod => fmod
  | .pow => pow

/-! ## Infinite powers of finite numbers -/

namespace Binary64

/-- **The signs of infinite powers**: what the standard says of a power `p` of `v`
to `b` at a pole and where it overflows. -/
structure SignsInfinities (v b p : Float) : Prop where
  /-- A negative power of zero is infinite. -/
  pole : (v == 0) = true → b < 0 → b.isFinite = true → p.isInf = true
  /-- An infinite power of finite numbers is negative for a base with its sign bit
  set, a negative zero included, and an odd whole exponent. -/
  sign : v.isFinite = true → b.isFinite = true → p.isInf = true →
    ((ofFloat p).isNegative = true
      ↔ (ofFloat v).isNegative = true ∧ ∃ k : ℤ, (ofFloat b).value = 2 * k + 1)

/-- **The infinity that a power of finite numbers is**, if it is one. -/
def infinitePower (v b : Float) : Float :=
  infinity ((ofFloat v).isNegative && (ofFloat b).isOdd)

theorem isNegative_infinity (negative : Bool) : (ofFloat (infinity negative)).isNegative = negative :=
  congrArg isNegative (ofFloat_infinity negative)

theorem signsInfinities_infinitePower (v b : Float) : SignsInfinities v b (infinitePower v b) := by
  refine ⟨fun _ _ _ => isInf_infinity _, fun _ _ _ => ?_⟩
  rw [infinitePower, isNegative_infinity, Bool.and_eq_true, isOdd_iff]

/-- **There is only one infinity of that sign.** -/
theorem SignsInfinities.eq_infinitePower {v b p : Float} (h : SignsInfinities v b p)
    (hv : v.isFinite = true) (hb : b.isFinite = true) (hp : p.isInf = true) :
    p = infinitePower v b := by
  have hsign := h.sign hv hb hp
  obtain ⟨negative, rfl⟩ := exists_eq_infinity hp
  rw [isNegative_infinity, ← isOdd_iff, ← Bool.and_eq_true, ← Bool.eq_iff_iff] at hsign
  rw [infinitePower, hsign]

end Binary64

/-- At a pole the answer is that infinity. -/
theorem undefinedPower_pole {v b : Float} (hv : (v == 0) = true) (hb : b < 0) :
    undefinedPower v b = infinitePower v b := by
  rw [undefinedPower, hv, decide_eq_true hb, Bool.and_true, if_pos rfl, copySign, infinitePower]
  cases (ofFloat v).isNegative <;> cases (ofFloat b).isOdd <;> decide +kernel

/-- After an overflow the answer is that infinity. -/
theorem overflowingPower_eq {v : Float} (hv : v.isFinite = true) (hzero : (v == 0) = false)
    (b : Float) : overflowingPower v b = infinitePower v b := by
  obtain ⟨negative, m, e, hof⟩ := isFinite_iff.mp hv
  have hm := significand_ne_zero hof hzero
  have hlt : decide (v < 0) = negative := by
    rw [Bool.eq_iff_iff, decide_eq_true_eq, lt_zero_iff hof, and_iff_left hm]
  have hsign : (ofFloat v).isNegative = negative := congrArg isNegative hof
  rw [overflowingPower, hlt, infinitePower, hsign]
  split
  · rename_i h
    rw [h]
  · rename_i h
    rw [Bool.not_eq_true] at h
    rw [h]

namespace Primitives

/-! ## A host over a remainder and a power function -/

section Host

variable (fmod pow : Float → Float → Float)

/-- What is raised under a condition only is nothing else. -/
theorem eq_of_ite_error {c : Prop} [Decidable c] {e t : Trap} {r : Float}
    (h : (if c then Except.error e else Except.ok r) = Except.error t) : t = e := by
  split at h
  · exact (Except.error.inj h).symm
  · cases h

theorem eq_of_quotient_error {v b : Float} {t : Trap}
    (h : (if b == 0 then Except.error Trap.zeroDivision else Except.ok (v / b)) = Except.error t) :
    t = .zeroDivision :=
  eq_of_ite_error h

/-- **The operations of a host** that computes remainders by `fmod` and powers by
`pow`, and raises where it could not go on with a finite number. -/
def host : Primitives where
  div v b := if b == 0 then .error .zeroDivision else .ok (v / b)
  rem v b := if (fmod v b).isNaN && !v.isNaN && !b.isNaN then .error .value else .ok (fmod v b)
  pow v b :=
    if v.isFinite && b.isFinite then
      if (pow v b).isNaN || v == 0 && decide (b < 0) then .error .value
      else if (pow v b).isInf && !(v == 0) then .error .overflow
      else .ok (pow v b)
    else .ok (pow v b)
  eq_of_div_raises := @eq_of_quotient_error
  eq_of_rem_raises := eq_of_ite_error
  eq_of_pow_raises := by
    intro v b t h
    split at h
    · split at h
      · exact .inl (Except.error.inj h).symm
      · exact .inr (eq_of_ite_error h)
    · cases h

theorem host_divide (v b : Float) : (host fmod pow).divide v b = .ok (v / b) :=
  divide_of_div rfl

theorem host_remainder (v b : Float) : (host fmod pow).remainder v b = .ok (fmod v b) :=
  remainder_of_rem rfl

theorem host_power {v b : Float} (h : SignsInfinities v b (pow v b)) :
    (host fmod pow).power v b = .ok (pow v b) := by
  unfold power host
  dsimp only
  split
  · rename_i hfinite
    obtain ⟨hv, hb⟩ := (Bool.and_eq_true _ _).mp hfinite
    split
    · -- No number, or a pole, where the answer for no number does not apply.
      rename_i hvalue
      refine congrArg Except.ok ?_
      by_cases hpole : (v == 0 && decide (b < 0)) = true
      · obtain ⟨hzero, hneg⟩ := (Bool.and_eq_true _ _).mp hpole
        rw [decide_eq_true_eq] at hneg
        rw [undefinedPower_pole hzero hneg, h.eq_infinitePower hv hb (h.pole hzero hneg hb)]
      · rw [Bool.or_eq_true] at hvalue
        rw [undefinedPower, if_neg hpole, isNaN_iff.mp (hvalue.resolve_right hpole)]
    · split
      · rename_i hoverflow
        obtain ⟨hinf, hzero⟩ := (Bool.and_eq_true _ _).mp hoverflow
        rw [Bool.not_eq_true'] at hzero
        refine congrArg Except.ok ?_
        rw [overflowingPower_eq hv hzero, h.eq_infinitePower hv hb hinf]
      · rfl
  · rfl

end Host

/-! ## Odd exponents by a remainder -/

section Tests

variable (P : Primitives) (fmod : Float → Float → Float)

/-- The power, with the odd exponents told by a remainder. -/
def powerByRemainder (v b : Float) : Except Trap Float :=
  (P.pow v b).tryCatch fun
    | .overflow =>
      .ok (if decide (v < 0) && leavesOne fmod b then infinity true else infinity false)
    | .value =>
      .ok (if v == 0 && decide (b < 0) then
          if leavesOne fmod b then copySign (infinity false) v else infinity false
        else undefined)
    | t => .error t

/-- **Applies an operator**, with the odd exponents told by a remainder. -/
def calculate (o : Operator) (v b : Float) : Except Trap Float :=
  match o with
  | .pow => P.powerByRemainder fmod v b
  | o => P.apply o v b

variable {fmod}

theorem powerByRemainder_eq (h : IsRemainderOf fmod) (v b : Float) :
    P.powerByRemainder fmod v b = P.power v b := by
  have hodd := leavesOne_eq_isOdd h b
  unfold powerByRemainder power
  cases P.pow v b with
  | ok x => rfl
  | error t =>
    cases t with
    | zeroDivision => rfl
    | overflow =>
      refine congrArg Except.ok ?_
      rw [hodd, overflowingPower]
    | value =>
      refine congrArg Except.ok ?_
      rw [hodd, undefinedPower]

/-- The two tests for odd exponents agree, so the operators do. -/
theorem calculate_eq_apply (h : IsRemainderOf fmod) (o : Operator) (v b : Float) :
    P.calculate fmod o v b = P.apply o v b := by
  cases o with
  | pow => exact P.powerByRemainder_eq h v b
  | add | sub | mul | div | mod => rfl

end Tests

/-- **The operators over a host give the results of the standard.** -/
theorem apply_host {fmod pow : Float → Float → Float} {v b : Float}
    (h : SignsInfinities v b (pow v b)) (o : Operator) :
    (host fmod pow).apply o v b = .ok (o.result fmod pow v b) := by
  cases o with
  | add | sub | mul => rfl
  | div => exact host_divide fmod pow v b
  | mod => exact host_remainder fmod pow v b
  | pow => exact host_power fmod pow h

end Primitives

/-- **The operators on doubles give the results of the standard**, over the power of
the library and any remainder function, since there is only one. -/
theorem Operator.apply_eq_result {fmod : Float → Float → Float} (h : IsRemainderOf fmod)
    (o : Operator) (v b : Float) : o.apply v b = o.result fmod power v b := by
  cases o with
  | add | sub | mul | div | pow => rfl
  | mod => exact (isRemainder_remainder v b).unique (h v b)

/-! ## The infinite powers of the library -/

namespace Binary64

open Float.Model (Format UnpackedFloat)
open Float.Model.UnpackedFloat (Sign)

theorem isInf_neg (x : Float) : (-x).isInf = x.isInf := by
  have hx : (⟨Float.Model.pack x.toModel.unpack⟩ : Float) = x := Float.ofBits_toBits x
  show (⟨Float.Model.pack x.toModel.unpack.neg⟩ : Float).isInf = _
  generalize x.toModel.unpack = u at hx
  subst hx
  cases u with
  | notANumber => decide +kernel
  | infinity s => cases s <;> decide +kernel
  | zero s => cases s <;> decide +kernel
  | finite s m e hm =>
    show (UnpackedFloat.unpack Format.binary64
        (UnpackedFloat.pack Format.binary64 (.finite (-s) m e hm))).isInf
      = (UnpackedFloat.unpack Format.binary64
        (UnpackedFloat.pack Format.binary64 (.finite s m e hm))).isInf
    by_cases h : Overflows e
    · rw [pack_of_overflows h, pack_of_overflows h]
      cases s <;> decide +kernel
    · have hfinite (t : Sign) : (UnpackedFloat.unpack Format.binary64
          (UnpackedFloat.pack Format.binary64 (.finite t m e hm))).isInf = false := by
        unfold UnpackedFloat.unpack
        dsimp only
        rw [if_neg (unpackExponent_pack_ne h t m hm)]
        split
        · split <;> rfl
        · rfl
      rw [hfinite, hfinite]

/-- A double without its sign. -/
def size (v : Float) : Float :=
  if (ofFloat v).isNegative then -v else v

theorem isInf_zero (negative : Bool) : (zero negative).isInf = false := by
  cases negative <;> decide +kernel

theorem isInf_one : (1 : Float).isInf = false := by
  decide +kernel

/-- **A power of zero** is infinite under a negative exponent only, with the sign
of the zero if the exponent is odd. -/
theorem powerOfZero_of_isInf {negative : Bool} {e : Binary64}
    (h : (powerOfZero negative e).isInf = true) :
    powerOfZero negative e = infinity (negative && e.isOdd) := by
  unfold powerOfZero at h ⊢
  dsimp only at h ⊢
  split
  · rfl
  · rename_i he
    rw [if_neg he, isInf_zero] at h
    exact absurd h Bool.false_ne_true

/-- **A power of a finite number that is not zero** has the size of the power of the
base without its sign. A negative base leaves its sign under an odd exponent, and
under one that is not whole there is no power. -/
theorem power_of_finite {v b : Float} {s t : Bool} {m n : Nat} {p q : Int}
    (hv : ofFloat v = .finite s m p) (hm : m ≠ 0) (hb : ofFloat b = .finite t n q)
    (hzero : (b == 0) = false) (hone : (v == 1) = false) :
    power v b = if s && !(ofFloat b).isWhole then undefined
      else if s && (ofFloat b).isOdd then -Float.pow (size v) b
      else Float.pow (size v) b := by
  obtain ⟨k, rfl⟩ := Nat.exists_eq_succ_of_ne_zero hm
  rw [power, hzero, hone, hv, hb, size, hv]
  cases s <;> rfl

/-- An infinite power is none that is one by its exponent or by its base. -/
theorem not_one_of_isInf {v b : Float} (hinf : (power v b).isInf = true) :
    (b == 0) = false ∧ (v == 1) = false := by
  unfold power at hinf
  split at hinf
  · rw [isInf_one] at hinf
    exact absurd hinf Bool.false_ne_true
  rename_i hzero
  split at hinf
  · rw [isInf_one] at hinf
    exact absurd hinf Bool.false_ne_true
  rename_i hone
  exact ⟨Bool.eq_false_iff.mpr hzero, Bool.eq_false_iff.mpr hone⟩

/-- **An infinite power of finite numbers** has the sign of the standard, if the
power of the base without its sign is not below zero. -/
theorem power_of_isInf {v b : Float} (h : (ofFloat (Float.pow (size v) b)).isNegative = false)
    (hv : v.isFinite = true) (hb : b.isFinite = true) (hinf : (power v b).isInf = true) :
    power v b = infinitePower v b := by
  obtain ⟨s, m, p, hv⟩ := isFinite_iff.mp hv
  obtain ⟨t, n, q, hb⟩ := isFinite_iff.mp hb
  obtain ⟨hzero, hone⟩ := not_one_of_isInf hinf
  have hsign : (ofFloat v).isNegative = s := congrArg isNegative hv
  rw [infinitePower, hsign]
  by_cases hm : m = 0
  · obtain ⟨sign, rfl⟩ := exists_eq_zero ((beq_zero_iff hv).mpr hm)
    rw [power_zero sign hzero, hb, if_neg nofun] at hinf ⊢
    rw [powerOfZero_of_isInf hinf, ← hsign, ofFloat_zero]
    rfl
  have hpositive (hinf : (Float.pow (size v) b).isInf = true) :
      Float.pow (size v) b = infinity false := by
    obtain ⟨negative, heq⟩ := exists_eq_infinity hinf
    rw [heq, isNegative_infinity] at h
    rw [heq, h]
  rw [power_of_finite hv hm hb hzero hone] at hinf ⊢
  split at hinf
  · exact absurd hinf (by decide +kernel)
  rename_i hwhole
  rw [if_neg hwhole]
  split at hinf
  · rename_i hodd
    rw [isInf_neg] at hinf
    rw [if_pos hodd, hodd, hpositive hinf]
    decide +kernel
  · rename_i hodd
    rw [if_neg hodd, Bool.eq_false_iff.mpr hodd, hpositive hinf]

/-- **The power of the library has the signs of the standard**, if its power of a
number that is not below zero is not below zero. -/
theorem signsInfinities_power {v b : Float}
    (h : (ofFloat (Float.pow (size v) b)).isNegative = false) :
    SignsInfinities v b (power v b) := by
  constructor
  · intro hv hb hfinite
    obtain ⟨s, rfl⟩ := exists_eq_zero hv
    obtain ⟨negative, m, e, hof⟩ := isFinite_iff.mp hfinite
    obtain ⟨rfl, hm⟩ := (lt_zero_iff hof).mp hb
    have hne : (b == 0) = false := by
      rw [← Bool.not_eq_true, beq_zero_iff hof]
      exact hm
    rw [power_zero s hne, hof, if_neg nofun]
    exact isInf_infinity _
  · intro hv hb hinf
    rw [power_of_isInf h hv hb hinf]
    exact (signsInfinities_infinitePower v b).sign hv hb (isInf_infinity _)

end Binary64

/-- **The results of the operators at `v` and `b` are those of the standard**, over a
remainder and a power function, whether the operations raise errors or not. -/
structure RestoresResults (fmod pow : Float → Float → Float) (v b : Float) : Prop where
  /-- Whatever the host raises, an operator answers with its result. -/
  host (o : Operator) :
    (Primitives.host fmod pow).calculate fmod o v b = .ok (o.result fmod pow v b)
  /-- The operators of the arithmetic over the host have these results. -/
  guarded (o : Operator) :
    o.apply (α := (Primitives.host fmod pow).Guarded) v b = o.result fmod pow v b
  /-- So have those on doubles, the power apart: there is one quotient and one
  remainder. -/
  doubles (o : Operator) (ho : o ≠ .pow) : o.apply (α := Float) v b = o.result fmod pow v b
  /-- Their power is the answer over a host that has the power of the library, if
  this is not below zero for a base that is not. -/
  library (o : Operator) (h : (ofFloat (Float.pow (size v) b)).isNegative = false) :
    (Primitives.host fmod power).calculate fmod o v b = .ok (o.apply (α := Float) v b)

/-- **The operators restore the result behind every error.** Over a host that raises
at a zero divisor, where a remainder is none, at a pole of the power, where it is
no number and where it overflows, each operator answers with the result of the
standard: the quotient of the doubles, the remainder of the host and the power of
the host, every infinity with its sign. Of the remainder it is needed that it is
one, of the power that it has the signs of the standard where it is infinite. -/
theorem restores_results {fmod pow : Float → Float → Float} (hfmod : IsRemainderOf fmod)
    {v b : Float} (hpow : SignsInfinities v b (pow v b)) : RestoresResults fmod pow v b := by
  have hcalculate {pow : Float → Float → Float} (hpow : SignsInfinities v b (pow v b))
      (o : Operator) :
      (Primitives.host fmod pow).calculate fmod o v b = .ok (o.result fmod pow v b) :=
    (Primitives.calculate_eq_apply _ hfmod o v b).trans (Primitives.apply_host hpow o)
  refine ⟨hcalculate hpow, fun o => ?_, fun o ho => ?_, fun o h => ?_⟩
  · exact Except.ok.inj ((Primitives.apply_eq _ o v b).symm.trans (Primitives.apply_host hpow o))
  · rw [o.apply_eq_result hfmod]
    cases o with
    | pow => exact absurd rfl ho
    | add | sub | mul | div | mod => rfl
  · rw [o.apply_eq_result hfmod]
    exact hcalculate (signsInfinities_power h) o

/-- An overflow of a negative base under an odd exponent, and a negative zero under a
negative odd one. -/
theorem restores_results_odd :
    (IsRemainderOf remainder ∧ SignsInfinities (-10) 309 (infinitePower (-10) 309)
      ∧ (Primitives.host remainder infinitePower).pow (-10) 309 = .error .overflow
      ∧ (Primitives.host remainder infinitePower).calculate remainder .pow (-10) 309
        = .ok (infinity true))
      ∧ (SignsInfinities (zero true) (-3) (power (zero true) (-3))
        ∧ (Primitives.host remainder power).pow (zero true) (-3) = .error .value
        ∧ (Primitives.host remainder power).calculate remainder .pow (zero true) (-3)
          = .ok (infinity true)) := by
  have hoverflow := signsInfinities_infinitePower (-10) 309
  have hpole : SignsInfinities (zero true) (-3) (power (zero true) (-3)) := by
    have heq : power (zero true) (-3) = infinitePower (zero true) (-3) := by decide +kernel
    exact heq ▸ signsInfinities_infinitePower _ _
  refine ⟨⟨isRemainder_remainder, hoverflow, ?_, ?_⟩, hpole, ?_, ?_⟩
  · decide +kernel
  · refine ((restores_results isRemainder_remainder hoverflow).host .pow).trans ?_
    exact congrArg Except.ok (by decide +kernel)
  · decide +kernel
  · refine ((restores_results isRemainder_remainder hpole).host .pow).trans ?_
    exact congrArg Except.ok (by decide +kernel)

end Reckon
