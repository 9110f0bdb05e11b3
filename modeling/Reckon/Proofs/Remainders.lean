import Mathlib
import Reckon.Proofs.Nearest
import Reckon.Proofs.Primitives

/-!
# Remainders of doubles

A finite double is a rational number (`Binary64.value`), and a sign besides, since
there are two zeros; the number and the sign determine it (`Binary64.eq_of_value`).

The remainder of `v` by `b` is what is left of `v` after `b` is taken away a whole
number of times, with the sign of `v` and less than `b` in size. `IsRemainder`
says so of numbers, and what there is instead where an operand is no finite
number. It does not say how to find the remainder, but there is only one
(`IsRemainder.unique`), and `Binary64.remainder` is it
(`isRemainder_remainder`): what is left has at most 53 bits on the finer of the
two steps (`rest_lt`), so it is a double, and nothing is rounded
(`exists_ofFloat_remainder`).

By a remainder it can be told whether a whole number is odd: one is left after
division by two, once the sign of the divisor is taken on
(`leavesOne_eq_isOdd`). That is so of negative numbers, whose own remainder is
minus one, and of numbers beyond `2 ^ 53`, all of which are even.
-/

namespace Reckon

namespace Binary64

/-! ## The number that a double is -/

/-- **The number that a finite double is**; every other one counts as zero. -/
def value : Binary64 → ℚ
  | .finite negative m e => (if negative then -1 else 1) * (m * 2 ^ e)
  | _ => 0

theorem abs_value (negative : Bool) (m : Nat) (e : Int) :
    |(Binary64.finite negative m e).value| = m * 2 ^ e := by
  have hpos : (0 : ℚ) ≤ m * 2 ^ e := by positivity
  rw [value, abs_mul, abs_of_nonneg hpos]
  cases negative with
  | false => rw [if_neg Bool.false_ne_true, abs_one, one_mul]
  | true => rw [if_pos rfl, abs_neg, abs_one, one_mul]

theorem value_nonneg {x : Binary64} (h : x.isNegative = false) : 0 ≤ x.value := by
  cases x with
  | nan => exact le_refl 0
  | infinite negative => exact le_refl 0
  | finite negative m e =>
    obtain rfl : negative = false := h
    rw [value, if_neg Bool.false_ne_true]
    positivity

theorem value_nonpos {x : Binary64} (h : x.isNegative = true) : x.value ≤ 0 := by
  cases x with
  | nan => exact le_refl 0
  | infinite negative => exact le_refl 0
  | finite negative m e =>
    obtain rfl : negative = true := h
    rw [value, if_pos rfl, neg_one_mul, neg_nonpos]
    positivity

/-- **The sign of a number that is not zero** is that of the double. -/
theorem isNegative_of_value_pos {x : Binary64} (h : 0 < x.value) : x.isNegative = false := by
  rw [← Bool.not_eq_true]
  exact fun hsign => absurd (value_nonpos hsign) (not_le.mpr h)

theorem isNegative_of_value_neg {x : Binary64} (h : x.value < 0) : x.isNegative = true := by
  rw [← Bool.not_eq_false]
  exact fun hsign => absurd (value_nonneg hsign) (not_le.mpr h)

section Kinds

variable {x : Float} {negative : Bool} {m : Nat} {e : Int}

theorem isNaN_iff_ofFloat : x.isNaN = true ↔ ofFloat x = .nan := by
  rw [isNaN_iff]
  exact ⟨fun h => h ▸ ofFloat_undefined, eq_undefined_of_ofFloat⟩

theorem isInf_iff_ofFloat : x.isInf = true ↔ ∃ negative, ofFloat x = .infinite negative := by
  constructor
  · intro h
    obtain ⟨negative, rfl⟩ := exists_eq_infinity h
    exact ⟨negative, ofFloat_infinity negative⟩
  · rintro ⟨negative, h⟩
    rw [eq_infinity_of_ofFloat h]
    exact isInf_infinity negative

/-- A double is no number, an infinity or finite. -/
theorem kind (x : Float) : x.isNaN = true ∨ x.isInf = true ∨ x.isFinite = true := by
  rw [isNaN_iff_ofFloat, isInf_iff_ofFloat, isFinite_iff]
  cases ofFloat x with
  | nan => exact .inl rfl
  | infinite negative => exact .inr (.inl ⟨negative, rfl⟩)
  | finite negative m e => exact .inr (.inr ⟨negative, m, e, rfl⟩)

/-- A finite double is equal to zero if it has no steps. -/
theorem beq_zero_iff (h : ofFloat x = .finite negative m e) : (x == 0) = true ↔ m = 0 := by
  constructor
  · intro hzero
    obtain ⟨sign, rfl⟩ := exists_eq_zero hzero
    exact (Binary64.finite.inj (h.symm.trans (ofFloat_zero sign))).2.1
  · rintro rfl
    obtain ⟨⟨_, _, hnormal⟩, hx⟩ := fields_of_finite h
    obtain rfl : e = leastExponent := by
      refine hnormal.resolve_left ?_
      decide
    obtain rfl : zero negative = x := hx
    cases negative <;> decide +kernel

theorem beq_zero_iff_value (h : x.isFinite = true) :
    (x == 0) = true ↔ (ofFloat x).value = 0 := by
  obtain ⟨negative, m, e, h⟩ := isFinite_iff.mp h
  rw [beq_zero_iff h, h, ← abs_eq_zero, abs_value, mul_eq_zero_iff_right (by positivity),
    Nat.cast_eq_zero]

theorem significand_ne_zero (h : ofFloat x = .finite negative m e) (hx : (x == 0) = false) :
    m ≠ 0 := by
  intro hm
  rw [(beq_zero_iff h).mpr hm] at hx
  exact Bool.false_ne_true hx.symm

/-- **A finite number that is not zero** is one for the library, of the same sign. -/
theorem exists_unpack_of_ofFloat (h : ofFloat x = .finite negative m e) (hm : m ≠ 0) :
    ∃ k q hk, x.toModel.unpack = .finite (signOf negative) k q hk := by
  have hx : (⟨Float.Model.pack x.toModel.unpack⟩ : Float) = x := Float.ofBits_toBits x
  cases hu : x.toModel.unpack with
  | notANumber =>
    have hnan : x.isNaN = true := congrArg Float.Model.UnpackedFloat.isNaN hu
    exact absurd (h.symm.trans (isNaN_iff_ofFloat.mp hnan)) nofun
  | infinity s =>
    have hinf : x.isInf = true := congrArg Float.Model.UnpackedFloat.isInf hu
    obtain ⟨sign, hof⟩ := isInf_iff_ofFloat.mp hinf
    exact absurd (h.symm.trans hof) nofun
  | zero s =>
    obtain ⟨sign, hzero⟩ := pack_zero s
    rw [hu, hzero] at hx
    rw [← hx, ofFloat_zero] at h
    exact absurd (Binary64.finite.inj h).2.1.symm hm
  | finite s k q hk =>
    obtain ⟨n, p, hof⟩ := ofFloat_of_unpack hu
    obtain rfl := (Binary64.finite.inj (h.symm.trans hof)).1
    exact ⟨k, q, hk, by cases s <;> rfl⟩

/-- A finite double is below zero if its sign bit is set and it is no zero. -/
theorem lt_zero_iff (h : ofFloat x = .finite negative m e) :
    x < 0 ↔ negative = true ∧ m ≠ 0 := by
  constructor
  · intro hlt
    rcases unpack_of_lt_zero hlt with rfl | ⟨k, q, hk, hu⟩
    · exact absurd ((ofFloat_infinity true).symm.trans h) nofun
    · obtain ⟨n, p, hof⟩ := ofFloat_of_unpack hu
      exact ⟨(Binary64.finite.inj (h.symm.trans hof)).1,
        significand_ne_zero h (beq_zero_of_unpack hu)⟩
  · rintro ⟨rfl, hm⟩
    obtain ⟨k, q, hk, hu⟩ := exists_unpack_of_ofFloat h hm
    have hzero : (0 : Float) = zero false := by decide +kernel
    have hlt : x.toModel.unpack.lt (zero false).toModel.unpack = true := by
      rw [hu]
      rfl
    rw [hzero]
    exact decide_eq_true hlt

end Kinds

/-! ## Doubles that are written by their number -/

/-- The greatest exponent of a finite double. -/
def greatestExponent : Int := 971

/-- A number of at most 53 bits has a normal form, on a step that is no coarser. -/
theorem exists_isNormalForm {m : Nat} {e : Int} (hm : m < 2 ^ 53) (he : leastExponent ≤ e) :
    ∃ k q, IsNormalForm k q ∧ q ≤ e ∧ (k : ℚ) * 2 ^ q = m * 2 ^ e := by
  obtain ⟨d, rfl⟩ : ∃ d : Nat, e = leastExponent + d := ⟨(e - leastExponent).toNat, by omega⟩
  clear he
  -- The step is halved until the number fills its bits or no finer step is left.
  induction d generalizing m with
  | zero => exact ⟨m, leastExponent, ⟨hm, Int.le_refl _, .inr rfl⟩, by omega, by simp⟩
  | succ d ih =>
    by_cases hfull : 2 ^ 52 ≤ m
    · exact ⟨m, _, ⟨hm, by omega, .inl hfull⟩, Int.le_refl _, rfl⟩
    · obtain ⟨k, q, hform, hle, hvalue⟩ := ih (m := m * 2) (by omega)
      refine ⟨k, q, hform, by omega, hvalue.trans ?_⟩
      rw [Nat.cast_mul, Nat.cast_ofNat, Nat.cast_succ, ← add_assoc, zpow_add_one₀ two_ne_zero,
        mul_assoc, mul_comm 2]

/-- **The fields of a finite double are read back** from its bits. -/
theorem ofFloat_withSign {field fraction : Nat} (negative : Bool) (hfield : field < 2047)
    (hfraction : fraction < 2 ^ 52) :
    ofFloat (withSign negative (field * 2 ^ 52 + fraction)) = ofFields negative field fraction := by
  have hweight : Nat.pow 2 52 = 2 ^ 52 := rfl
  have hfields : Nat.pow 2 11 = 2 ^ 11 := rfl
  have hsign : signBit = 2 ^ 63 := rfl
  have hle : field * 2 ^ 52 + fraction ≤ infinityBits := by
    rw [infinityBits]
    omega
  rw [ofFloat, toNat_toBits_withSign _ hle, ofBits, hweight, hfields, hsign]
  generalize hbits : (if negative then 2 ^ 63 + (field * 2 ^ 52 + fraction)
    else field * 2 ^ 52 + fraction) = bits
  have hparts : decide (2 ^ 63 ≤ bits) = negative ∧ bits / 2 ^ 52 % 2 ^ 11 = field
      ∧ bits % 2 ^ 52 = fraction := by
    cases negative with
    | false =>
      rw [if_neg Bool.false_ne_true] at hbits
      exact ⟨decide_eq_false (by omega), by omega, by omega⟩
    | true =>
      rw [if_pos rfl] at hbits
      exact ⟨decide_eq_true (by omega), by omega, by omega⟩
  rw [hparts.1, hparts.2.1, hparts.2.2]
  rfl

/-- **A normal form that is not too large is read back** from its bits. -/
theorem IsNormalForm.ofFloat_magnitudeOf {m : Nat} {e : Int} (h : IsNormalForm m e)
    (he : e ≤ greatestExponent) (negative : Bool) :
    ofFloat (withSign negative (magnitudeOf e m)) = .finite negative m e := by
  obtain ⟨hlt, hleast, hnormal⟩ := h
  have hweight : Nat.pow 2 52 = 2 ^ 52 := rfl
  rw [greatestExponent] at he
  rw [leastExponent] at hleast hnormal
  obtain ⟨k, rfl⟩ : ∃ k : Nat, e = k - 1074 := ⟨(e + 1074).toNat, by omega⟩
  have hstep : ((k : Int) - 1074 - leastExponent).toNat = k := by
    rw [leastExponent]
    omega
  have hcut : min (k * 2 ^ 52 + m) infinityBits = k * 2 ^ 52 + m := by
    rw [infinityBits]
    omega
  rw [magnitudeOf, hstep, hweight, hcut]
  by_cases hm : 2 ^ 52 ≤ m
  · obtain ⟨fraction, rfl⟩ := Nat.exists_eq_add_of_le' hm
    have hcarry : k * 2 ^ 52 + (fraction + 2 ^ 52) = (k + 1) * 2 ^ 52 + fraction := by ring
    have hfield : k + 1 ≠ 2047 := by omega
    have hexponent : ((k + 1 : Nat) : Int) - 1075 = k - 1074 := by omega
    rw [hcarry, ofFloat_withSign negative (by omega) (by omega), ofFields, if_neg hfield,
      if_neg (Nat.succ_ne_zero k), hexponent]
    rfl
  · obtain rfl : k = 0 := by omega
    rw [ofFloat_withSign negative (by omega) (by omega)]
    rfl

/-- **A number of at most 53 bits is a double** on every step of the format. -/
theorem exists_ofFloat_nearestScaled {m : Nat} {e : Int} (hm : m < 2 ^ 53)
    (hleast : leastExponent ≤ e) (hgreatest : e ≤ greatestExponent) (negative : Bool) :
    ∃ k q, ofFloat (nearestScaled negative m e) = .finite negative k q
      ∧ (k : ℚ) * 2 ^ q = m * 2 ^ e := by
  obtain ⟨k, q, hform, hle, hvalue⟩ := exists_isNormalForm hm hleast
  refine ⟨k, q, ?_, hvalue⟩
  have hnearest : nearestScaled negative m e
      = withSign negative (nearestMagnitude (Decimal.quotient m e).1 (Decimal.quotient m e).2) := by
    unfold nearestScaled Decimal.quotient
    split <;> rfl
  have hsame : ((Decimal.quotient m e).1 : ℚ) / (Decimal.quotient m e).2
      = (Decimal.quotient k q).1 / (Decimal.quotient k q).2 := by
    rw [value_quotient, value_quotient, hvalue]
  rw [hnearest, nearestMagnitude_congr (quotient_pos m e) (quotient_pos k q) hsame,
    hform.nearestMagnitude_quotient]
  exact hform.ofFloat_magnitudeOf (by omega) negative

/-- A finite double has an exponent of the format. -/
theorem exponent_le {x : Float} {negative : Bool} {m : Nat} {e : Int}
    (h : ofFloat x = .finite negative m e) : e ≤ greatestExponent := by
  obtain ⟨⟨hlt, hleast, hnormal⟩, hx⟩ := fields_of_finite h
  refine not_lt.mp fun hlarge => ?_
  have hweight : Nat.pow 2 52 = 2 ^ 52 := rfl
  have hmagnitude : magnitudeOf e m = infinityBits := by
    refine Nat.min_eq_right ?_
    rw [greatestExponent] at hlarge
    rw [leastExponent] at hnormal
    rw [infinityBits, leastExponent, hweight]
    omega
  rw [hmagnitude] at hx
  rw [← hx] at h
  exact Binary64.noConfusion ((ofFloat_infinity negative).symm.trans h)

/-- **A finite double is determined by its sign and its number.** -/
theorem eq_of_value {x y : Float} (hx : x.isFinite = true) (hy : y.isFinite = true)
    (hsign : (ofFloat x).isNegative = (ofFloat y).isNegative)
    (hvalue : (ofFloat x).value = (ofFloat y).value) : x = y := by
  obtain ⟨s, m, e, hx⟩ := isFinite_iff.mp hx
  obtain ⟨t, n, q, hy⟩ := isFinite_iff.mp hy
  rw [hx, hy] at hsign hvalue
  obtain rfl : s = t := hsign
  have hunit : (if s = true then (-1 : ℚ) else 1) ≠ 0 := by
    split <;> norm_num
  have hsame : (m : ℚ) * 2 ^ e = n * 2 ^ q := mul_left_cancel₀ hunit hvalue
  rw [← nearest_quotient hx, ← nearest_quotient hy, nearest, nearest]
  congr 1
  refine nearestMagnitude_congr (quotient_pos m e) (quotient_pos n q) ?_
  rw [value_quotient, value_quotient, hsame]

/-! ## What a remainder is -/

/-- **`r` is the remainder of `v` by `b`.** -/
structure IsRemainder (v b r : Float) : Prop where
  /-- There is none of an infinity, none by a zero, and none without a number. -/
  undefined : v.isNaN = true ∨ b.isNaN = true ∨ v.isInf = true ∨ (b == 0) = true →
    r.isNaN = true
  /-- An infinity cannot be taken away from a number. -/
  infinite : v.isFinite = true → b.isInf = true → r = v
  /-- **Of finite numbers** it is what is left of `v` after `b` is taken away a
  whole number of times, of the sign of `v` and of less than the size of `b`. -/
  finite : v.isFinite = true → b.isFinite = true → (b == 0) = false →
    r.isFinite = true ∧ (ofFloat r).isNegative = (ofFloat v).isNegative
      ∧ |(ofFloat r).value| < |(ofFloat b).value|
      ∧ ∃ n : ℤ, (ofFloat r).value = (ofFloat v).value - n * (ofFloat b).value

/-- **A remainder function of the doubles.** -/
def IsRemainderOf (fmod : Float → Float → Float) : Prop :=
  ∀ v b, IsRemainder v b (fmod v b)

/-- Numbers of one sign that are each less than a third differ by less than it. -/
theorem abs_sub_lt {x y : Binary64} {c : ℚ} (hsign : x.isNegative = y.isNegative)
    (hx : |x.value| < c) (hy : |y.value| < c) : |x.value - y.value| < c := by
  rw [abs_lt] at hx hy ⊢
  cases hy' : y.isNegative with
  | false =>
    have hx₀ : 0 ≤ x.value := value_nonneg (hsign.trans hy')
    have hy₀ : 0 ≤ y.value := value_nonneg hy'
    constructor <;> linarith
  | true =>
    have hx₀ : x.value ≤ 0 := value_nonpos (hsign.trans hy')
    have hy₀ : y.value ≤ 0 := value_nonpos hy'
    constructor <;> linarith

/-- **There is only one remainder.** -/
theorem IsRemainder.unique {v b r r' : Float} (h : IsRemainder v b r) (h' : IsRemainder v b r') :
    r = r' := by
  have hundefined (hcase : v.isNaN = true ∨ b.isNaN = true ∨ v.isInf = true ∨ (b == 0) = true) :
      r = r' :=
    (isNaN_iff.mp (h.undefined hcase)).trans (isNaN_iff.mp (h'.undefined hcase)).symm
  rcases kind v with hv | hv | hv
  · exact hundefined (.inl hv)
  · exact hundefined (.inr (.inr (.inl hv)))
  rcases kind b with hb | hb | hb
  · exact hundefined (.inr (.inl hb))
  · exact (h.infinite hv hb).trans (h'.infinite hv hb).symm
  by_cases hzero : (b == 0) = true
  · exact hundefined (.inr (.inr (.inr hzero)))
  rw [Bool.not_eq_true] at hzero
  obtain ⟨hfinite, hsign, hlt, n, hn⟩ := h.finite hv hb hzero
  obtain ⟨hfinite', hsign', hlt', n', hn'⟩ := h'.finite hv hb hzero
  refine eq_of_value hfinite hfinite' (hsign.trans hsign'.symm) ?_
  -- They differ by a multiple of `b`, and by less than one time `b`.
  have hdiff : (ofFloat r).value - (ofFloat r').value = ((n' - n : ℤ) : ℚ) * (ofFloat b).value := by
    rw [hn, hn', Int.cast_sub]
    ring
  have hsmall := abs_sub_lt (hsign.trans hsign'.symm) hlt hlt'
  rw [hdiff, abs_mul, mul_lt_iff_lt_one_left (lt_of_le_of_lt (abs_nonneg _) hlt)] at hsmall
  have hnone : n' - n = 0 := Int.abs_lt_one_iff.mp (by exact_mod_cast hsmall)
  rw [hnone, Int.cast_zero, zero_mul, sub_eq_zero] at hdiff
  exact hdiff

/-! ## The remainder of the library -/

/-- **What is left of `m` steps of `2 ^ p`** after division by `n` steps of `2 ^ q`,
counted on the finer of the two. -/
def rest (m n : Nat) (p q : Int) : Nat :=
  m * Nat.pow 2 (p - min p q).toNat % (n * Nat.pow 2 (q - min p q).toNat)

section Rest

variable {m n : Nat} {p q : Int}

/-- Counting on a finer step. -/
theorem cast_mul_pow_step {step : Int} (h : step ≤ p) :
    ((m * Nat.pow 2 (p - step).toNat : Nat) : ℚ) * 2 ^ step = m * 2 ^ p := by
  rw [Nat.cast_mul, cast_pow_toNat 2 (by omega), mul_assoc, Nat.cast_ofNat,
    ← zpow_add₀ two_ne_zero, Int.sub_add_cancel]

/-- **What is left has at most 53 bits**, as the operand on the finer step has. -/
theorem rest_lt (hm : m < 2 ^ 53) (hn : n < 2 ^ 53) (hpos : n ≠ 0) : rest m n p q < 2 ^ 53 := by
  rw [rest]
  rcases le_total p q with h | h
  · rw [min_eq_left h, Int.sub_self]
    exact lt_of_le_of_lt (Nat.mod_le _ _) ((Nat.mul_one m).symm ▸ hm)
  · rw [min_eq_right h, Int.sub_self q]
    refine lt_trans (Nat.mod_lt _ ?_) ((Nat.mul_one n).symm ▸ hn)
    exact (Nat.mul_one n).symm ▸ Nat.pos_of_ne_zero hpos

/-- It is less than the divisor. -/
theorem rest_mul_lt (m : Nat) (p : Int) (hpos : n ≠ 0) :
    (rest m n p q : ℚ) * 2 ^ min p q < n * 2 ^ q := by
  have hlt : rest m n p q < n * Nat.pow 2 (q - min p q).toNat :=
    Nat.mod_lt _ (Nat.mul_pos (Nat.pos_of_ne_zero hpos) (Nat.pow_pos Nat.two_pos))
  rw [← cast_mul_pow_step (min_le_right p q)]
  gcongr

/-- It is the dividend less a whole number of times the divisor. -/
theorem exists_rest_eq (m n : Nat) (p q : Int) :
    ∃ k : ℤ, (rest m n p q : ℚ) * 2 ^ min p q = m * 2 ^ p - k * (n * 2 ^ q) := by
  rw [rest, ← cast_mul_pow_step (min_le_left p q), ← cast_mul_pow_step (min_le_right p q)]
  generalize m * Nat.pow 2 (p - min p q).toNat = M
  generalize n * Nat.pow 2 (q - min p q).toNat = N
  have hrest : ((M % N : Nat) : ℚ) = M - (M / N : Nat) * N := by
    rw [eq_sub_iff_add_eq]
    exact_mod_cast Nat.mod_add_div' M N
  refine ⟨(M / N : Nat), ?_⟩
  rw [hrest, Int.cast_natCast]
  ring

end Rest

/-- What is taken away from a size a whole number of times is taken away from the
number that has it, whichever signs there are. -/
theorem exists_signed_sub (s t : Bool) (x y : ℚ) (k : ℤ) :
    ∃ n : ℤ, (if s then (-1 : ℚ) else 1) * (x - k * y)
      = (if s then -1 else 1) * x - n * ((if t then -1 else 1) * y) := by
  cases s <;> cases t
  · exact ⟨k, by simp⟩
  · exact ⟨-k, by simp⟩
  · exact ⟨-k, by simp; ring⟩
  · exact ⟨k, by simp; ring⟩

/-- **Nothing is rounded**: the remainder of finite numbers is what is left. -/
theorem exists_ofFloat_remainder {v b : Float} {s t : Bool} {m n : Nat} {p q : Int}
    (hv : ofFloat v = .finite s m p) (hb : ofFloat b = .finite t n q) (hn : n ≠ 0) :
    ∃ k e, ofFloat (remainder v b) = .finite s k e
      ∧ (k : ℚ) * 2 ^ e = rest m n p q * 2 ^ min p q := by
  have hvform := (fields_of_finite hv).1
  have hbform := (fields_of_finite hb).1
  have hr : remainder v b = nearestScaled s (rest m n p q) (min p q) := by
    unfold remainder
    rw [hv, hb]
    exact if_neg hn
  rw [hr]
  exact exists_ofFloat_nearestScaled (rest_lt hvform.lt hbform.lt hn)
    (le_min hvform.least hbform.least) ((min_le_left p q).trans (exponent_le hv)) s

/-- **The remainder of the library is the remainder.** -/
theorem isRemainder_remainder : IsRemainderOf remainder := by
  intro v b
  refine ⟨fun h => ?_, fun hv hb => ?_, fun hv hb hzero => ?_⟩
  · rcases h with h | h | h | h
    · exact isNaN_remainder (.inl h)
    · exact isNaN_remainder (.inr h)
    · obtain ⟨negative, hv⟩ := isInf_iff_ofFloat.mp h
      unfold remainder
      rw [hv]
      cases ofFloat b <;> exact isNaN_undefined
    · obtain ⟨negative, rfl⟩ := exists_eq_zero h
      unfold remainder
      rw [ofFloat_zero]
      cases ofFloat v <;> exact isNaN_undefined
  · obtain ⟨negative, m, p, hv⟩ := isFinite_iff.mp hv
    obtain ⟨t, hb⟩ := isInf_iff_ofFloat.mp hb
    unfold remainder
    rw [hv, hb]
  · obtain ⟨s, m, p, hv⟩ := isFinite_iff.mp hv
    obtain ⟨t, n, q, hb⟩ := isFinite_iff.mp hb
    have hn := significand_ne_zero hb hzero
    obtain ⟨k, e, hr, hvalue⟩ := exists_ofFloat_remainder hv hb hn
    refine ⟨isFinite_iff.mpr ⟨s, k, e, hr⟩, ?_, ?_, ?_⟩
    · rw [hr, hv]
      rfl
    · rw [hr, hb, abs_value, abs_value, hvalue]
      exact rest_mul_lt m p hn
    · obtain ⟨i, hi⟩ := exists_rest_eq m n p q
      obtain ⟨j, hj⟩ := exists_signed_sub s t (m * 2 ^ p) (n * 2 ^ q) i
      refine ⟨j, ?_⟩
      rw [hr, hv, hb, value, value, value, ← hj, hvalue, hi]

/-! ## Odd whole numbers -/

/-- A number below the point is whole if its steps make up whole ones. -/
theorem mul_pow_eq_natCast_iff {m k : Nat} {e : Int} (he : e ≤ 0) :
    (m : ℚ) * 2 ^ e = k ↔ m = k * Nat.pow 2 (-e).toNat := by
  rw [← Nat.cast_inj (R := ℚ), Nat.cast_mul, cast_pow_toNat 2 (by omega), zpow_neg, Nat.cast_ofNat,
    eq_mul_inv_iff_mul_eq₀ (by positivity)]

theorem isWhole_iff (negative : Bool) (m : Nat) (e : Int) :
    (Binary64.finite negative m e).isWhole = true ↔ ∃ k : Nat, (m : ℚ) * 2 ^ e = k := by
  rw [isWhole, Bool.or_eq_true, decide_eq_true_eq, beq_iff_eq]
  constructor
  · intro h
    rcases le_total 0 e with he | he
    · refine ⟨m * Nat.pow 2 e.toNat, ?_⟩
      rw [Nat.cast_mul, cast_pow_toNat 2 he, Nat.cast_ofNat]
    · refine ⟨m / Nat.pow 2 (-e).toNat, (mul_pow_eq_natCast_iff he).mpr ?_⟩
      refine (Nat.div_mul_cancel (Nat.dvd_of_mod_eq_zero (h.elim (fun hnonneg => ?_) id))).symm
      obtain rfl : e = 0 := le_antisymm he hnonneg
      exact Nat.mod_one m
  · rintro ⟨k, hk⟩
    rcases le_total 0 e with he | he
    · exact .inl he
    · refine .inr ?_
      rw [(mul_pow_eq_natCast_iff he).mp hk, Nat.mul_mod_left]

theorem isOdd_finite_iff (negative : Bool) (m : Nat) (e : Int) :
    (Binary64.finite negative m e).isOdd = true
      ↔ ∃ k : Nat, (m : ℚ) * 2 ^ e = (2 * k + 1 : Nat) := by
  rw [isOdd, Bool.and_eq_true, Bool.and_eq_true, decide_eq_true_eq, beq_iff_eq, beq_iff_eq]
  constructor
  · rintro ⟨⟨he, hm⟩, hodd⟩
    refine ⟨m / Nat.pow 2 (-e).toNat / 2, (mul_pow_eq_natCast_iff he).mpr ?_⟩
    have hhalf : 2 * (m / Nat.pow 2 (-e).toNat / 2) + 1 = m / Nat.pow 2 (-e).toNat := by omega
    rw [hhalf, Nat.div_mul_cancel (Nat.dvd_of_mod_eq_zero hm)]
  · rintro ⟨k, hk⟩
    rcases le_or_gt e 0 with he | he
    · have hpos : 0 < Nat.pow 2 (-e).toNat := Nat.pow_pos Nat.two_pos
      rw [(mul_pow_eq_natCast_iff he).mp hk, Nat.mul_mod_left, Nat.mul_div_cancel _ hpos]
      omega
    · -- Above the point every number is even.
      obtain ⟨d, rfl⟩ : ∃ d : Nat, e = d + 1 := ⟨(e - 1).toNat, by omega⟩
      rw [← Nat.cast_succ, zpow_natCast, pow_succ, ← mul_assoc] at hk
      have hparity : m * 2 ^ d * 2 = 2 * k + 1 := by exact_mod_cast hk
      omega

/-- **A double is odd if its number is an odd whole one.** -/
theorem isOdd_iff (x : Binary64) : x.isOdd = true ↔ ∃ k : ℤ, x.value = 2 * k + 1 := by
  have hzero : ¬∃ k : ℤ, (0 : ℚ) = 2 * k + 1 := by
    rintro ⟨k, hk⟩
    have hk : (0 : ℤ) = 2 * k + 1 := by exact_mod_cast hk
    omega
  cases x with
  | nan => exact iff_of_false Bool.false_ne_true hzero
  | infinite negative => exact iff_of_false Bool.false_ne_true hzero
  | finite negative m e =>
    rw [isOdd_finite_iff]
    constructor
    · rintro ⟨k, hk⟩
      rw [value, hk]
      cases negative with
      | false => exact ⟨k, by simp⟩
      | true => exact ⟨-k - 1, by rw [if_pos rfl]; push_cast; ring⟩
    · rintro ⟨k, hk⟩
      have hodd : (2 * k + 1).natAbs = 2 * ((2 * k + 1).natAbs / 2) + 1 := by omega
      refine ⟨(2 * k + 1).natAbs / 2, ?_⟩
      rw [← hodd, ← abs_value negative, hk, Nat.cast_natAbs, Int.cast_abs]
      push_cast
      rfl

/-- What is odd is whole. -/
theorem isWhole_of_isOdd {x : Binary64} (h : x.isOdd = true) : x.isWhole = true := by
  cases x with
  | nan => exact absurd h Bool.false_ne_true
  | infinite negative => exact absurd h Bool.false_ne_true
  | finite negative m e =>
    obtain ⟨k, hk⟩ := (isOdd_finite_iff negative m e).mp h
    exact (isWhole_iff negative m e).mpr ⟨_, hk⟩

/-- The number of a whole double. -/
theorem exists_value_of_isWhole {x : Binary64} (h : x.isWhole = true) : ∃ z : ℤ, x.value = z := by
  cases x with
  | nan => exact absurd h Bool.false_ne_true
  | infinite negative => exact absurd h Bool.false_ne_true
  | finite negative m e =>
    obtain ⟨k, hk⟩ := (isWhole_iff negative m e).mp h
    refine ⟨if negative then -k else k, ?_⟩
    rw [value, hk]
    cases negative <;> simp

/-! ### Telling them by a remainder -/

/-- **The remainder with the sign of the divisor**, from the one with the sign of
the dividend. -/
def flooredRemainder (fmod : Float → Float → Float) (v b : Float) : Float :=
  let r := fmod v b
  if r == 0 then copySign (zero false) b
  else if decide (b < 0) != decide (r < 0) then r + b
  else r

/-- **Is the number whole, and is one left of it after division by two?** -/
def leavesOne (fmod : Float → Float → Float) (b : Float) : Bool :=
  (ofFloat b).isWhole && flooredRemainder fmod b 2 == 1

theorem value_one : (ofFloat 1).value = 1 := by
  have hone : ofFloat 1 = .finite false (2 ^ 52) (-52) := by decide +kernel
  rw [hone, value]
  norm_num

theorem value_minusOne : (ofFloat (-1)).value = -1 := by
  have hone : ofFloat (-1) = .finite true (2 ^ 52) (-52) := by decide +kernel
  rw [hone, value]
  norm_num

theorem value_two : (ofFloat 2).value = 2 := by
  have htwo : ofFloat 2 = .finite false (2 ^ 52) (-51) := by decide +kernel
  rw [htwo, value]
  norm_num

/-- **What is left of a whole number after division by two**: nothing of an even
one, and one of an odd one, with its sign. -/
theorem IsRemainder.by_two {b r : Float} {z : ℤ} (h : IsRemainder b 2 r) (hb : b.isFinite = true)
    (hz : (ofFloat b).value = z) :
    (r == 0) = true ∧ z % 2 = 0 ∨ r = 1 ∧ z % 2 = 1 ∨ r = -1 ∧ z % 2 = 1 := by
  obtain ⟨hr, hsign, hlt, n, hn⟩ := h.finite hb (by decide +kernel) (by decide +kernel)
  rw [value_two, hz] at hn
  rw [value_two, hn, abs_two] at hlt
  have hsmall : |z - n * 2| < 2 := by exact_mod_cast hlt
  rw [abs_lt] at hsmall
  have hcases : z - n * 2 = 0 ∨ z - n * 2 = 1 ∨ z - n * 2 = -1 := by omega
  have hvalue : (ofFloat r).value = (z - n * 2 : ℤ) := by
    rw [hn]
    push_cast
    rfl
  rcases hcases with hw | hw | hw
  · rw [hw, Int.cast_zero] at hvalue
    exact .inl ⟨(beq_zero_iff_value hr).mpr hvalue, by omega⟩
  · rw [hw, Int.cast_one] at hvalue
    have hpositive : (ofFloat r).isNegative = false := isNegative_of_value_pos (hvalue ▸ one_pos)
    refine .inr (.inl ⟨eq_of_value hr (by decide +kernel) ?_ (hvalue.trans value_one.symm), ?_⟩)
    · exact hpositive.trans (by decide +kernel)
    · omega
  · rw [hw, Int.cast_neg, Int.cast_one] at hvalue
    have hnegative : (ofFloat r).isNegative = true :=
      isNegative_of_value_neg (hvalue ▸ neg_one_lt_zero)
    refine .inr (.inr ⟨eq_of_value hr (by decide +kernel) ?_ (hvalue.trans value_minusOne.symm), ?_⟩)
    · exact hnegative.trans (by decide +kernel)
    · omega

/-- **The test tells the odd numbers.** -/
theorem leavesOne_eq_isOdd {fmod : Float → Float → Float} (h : IsRemainderOf fmod) (b : Float) :
    leavesOne fmod b = (ofFloat b).isOdd := by
  rw [leavesOne]
  cases hwhole : (ofFloat b).isWhole with
  | false =>
    rw [Bool.false_and, eq_comm, ← Bool.not_eq_true]
    exact fun hodd => absurd (isWhole_of_isOdd hodd) (Bool.eq_false_iff.mp hwhole)
  | true =>
    obtain ⟨z, hz⟩ := exists_value_of_isWhole hwhole
    have hfinite : b.isFinite = true := by
      rw [isFinite_iff]
      cases hof : ofFloat b with
      | finite negative m e => exact ⟨negative, m, e, rfl⟩
      | nan | infinite _ =>
        rw [hof] at hwhole
        exact absurd hwhole Bool.false_ne_true
    have hodd : (ofFloat b).isOdd = true ↔ z % 2 = 1 := by
      rw [isOdd_iff, hz]
      constructor
      · rintro ⟨k, hk⟩
        have hk : z = 2 * k + 1 := by exact_mod_cast hk
        omega
      · intro hone
        exact ⟨z / 2, by exact_mod_cast (by omega : z = 2 * (z / 2) + 1)⟩
    rw [Bool.true_and, Bool.eq_iff_iff, hodd, flooredRemainder]
    rcases (h b 2).by_two hfinite hz with ⟨hr, hpar⟩ | ⟨hr, hpar⟩ | ⟨hr, hpar⟩
    · rw [if_pos hr]
      exact iff_of_false (by decide +kernel) (by omega)
    · rw [hr]
      exact iff_of_true (by decide +kernel) hpar
    · rw [hr]
      exact iff_of_true (by decide +kernel) hpar

end Binary64
end Reckon
