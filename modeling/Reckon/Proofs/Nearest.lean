import Mathlib
import Reckon.Decimal.Shortest
import Reckon.Proofs.Undefined

/-!
# Doubles and decimals that round to them

What a quotient is rounded to depends on its value alone, not on how it is
written: for the whole number nearest to it (`roundDiv_congr`), for its binary
order, which is the logarithm to the base two (`binaryOrder_eq_log`), and so for
the double nearest to it (`Binary64.nearestMagnitude_congr`). The two guards of
`Binary64.decimalMagnitude` decide nothing else than the rounding would, so two
decimals of one value denote the same double (`Binary64.decimalMagnitude_congr`).

A double is its own rounding (`Binary64.nearest_quotient`). Whichever decimal the
search for the shortest one ends with, it rounds to the same magnitude as the
value of the double does, and therefore reads back as the double
(`Binary64.ofDecimal_of_value_shortest`).

A number is rounded to an infinity from half a step below `2 ^ 1024` on
(`Binary64.nearestMagnitude_eq_infinityBits_iff`).
-/

namespace Reckon

open Float.Model.UnpackedFloat

/-! ## Powers that are written by their size -/

theorem cast_pow_toNat (base : Nat) {k : Int} (h : 0 ≤ k) :
    ((Nat.pow base k.toNat : Nat) : ℚ) = (base : ℚ) ^ k := by
  obtain ⟨n, rfl⟩ := Int.eq_ofNat_of_zero_le h
  rw [Int.toNat_natCast, zpow_natCast]
  exact Nat.cast_pow base n

theorem cast_pow_toNat_neg (base : Nat) {k : Int} (h : ¬ 0 ≤ k) :
    ((Nat.pow base (-k).toNat : Nat) : ℚ) = ((base : ℚ) ^ k)⁻¹ := by
  rw [cast_pow_toNat base (by omega), zpow_neg]

theorem cast_two_pow_mul (n : Nat) (k : Int) :
    ((2 ^ n : Nat) : ℚ) * 2 ^ k = ((2 : Nat) : ℚ) ^ ((n : Int) + k) := by
  rw [Nat.cast_pow, Nat.cast_ofNat, zpow_add₀ two_ne_zero, zpow_natCast]

/-! ## Rounding a quotient -/

/-- Rounding does not see a common factor. -/
theorem roundDiv_mul_left {k : Nat} (hk : 0 < k) (num den : Nat) :
    roundDiv (k * num) (k * den) = roundDiv num den := by
  have hlt (a b : Nat) : 2 * (k * a) < k * b ↔ 2 * a < b := by
    rw [Nat.mul_left_comm]
    exact Nat.mul_lt_mul_left hk
  have hgt (a b : Nat) : k * b < 2 * (k * a) ↔ b < 2 * a := by
    rw [Nat.mul_left_comm]
    exact Nat.mul_lt_mul_left hk
  unfold roundDiv
  simp only [Nat.mul_div_mul_left _ _ hk, Nat.mul_mod_mul_left, hlt, hgt]

/-- **What a quotient is rounded to depends on its value alone.** -/
theorem roundDiv_congr {num den num' den' : Nat} (hden : 0 < den) (hden' : 0 < den')
    (h : (num : ℚ) / den = num' / den') : roundDiv num den = roundDiv num' den' := by
  have hcross : den' * num = den * num' := by
    rw [div_eq_div_iff (by positivity) (by positivity)] at h
    rw [Nat.mul_comm, Nat.mul_comm den]
    exact_mod_cast h
  rw [← roundDiv_mul_left hden', hcross, Nat.mul_comm den', roundDiv_mul_left hden]

theorem num_pos_of_value_pos {num den : Nat} (h : (0 : ℚ) < (num : ℚ) / den) : 0 < num := by
  refine Nat.pos_of_ne_zero fun hzero => ?_
  rw [hzero, Nat.cast_zero, zero_div] at h
  exact lt_irrefl _ h

/-- Less than a half is rounded to nothing. -/
theorem roundDiv_eq_zero {num den : Nat} (h : 2 * num < den) : roundDiv num den = 0 := by
  have hlt : num < den := by omega
  rw [roundDiv, Nat.div_eq_of_lt hlt, Nat.mod_eq_of_lt hlt, if_pos h]

/-! ## Steps -/

/-- `num / den` in steps of `base ^ k`, as a quotient. -/
def inSteps (base : Nat) (k : Int) (num den : Nat) : Nat × Nat :=
  if 0 ≤ k then (num, den * Nat.pow base k.toNat) else (num * Nat.pow base (-k).toNat, den)

section Steps

variable {base num den : Nat} {k : Int}

theorem roundDivPow_eq_roundDiv : roundDivPow base k num den
    = roundDiv (inSteps base k num den).1 (inSteps base k num den).2 := by
  unfold roundDivPow inSteps
  split <;> rfl

theorem floorDivPow_eq_div : floorDivPow base k num den
    = (inSteps base k num den).1 / (inSteps base k num den).2 := by
  unfold floorDivPow inSteps
  split <;> rfl

theorem inSteps_pos (hbase : 0 < base) (hden : 0 < den) : 0 < (inSteps base k num den).2 := by
  unfold inSteps
  split
  · exact Nat.mul_pos hden (Nat.pow_pos hbase)
  · exact hden

/-- **Counting in steps divides by the step.** -/
theorem value_inSteps : ((inSteps base k num den).1 : ℚ)
    / (inSteps base k num den).2 = num / den / (base : ℚ) ^ k := by
  unfold inSteps
  split
  · rename_i h
    rw [Nat.cast_mul, cast_pow_toNat base h, div_div]
  · rename_i h
    rw [Nat.cast_mul, cast_pow_toNat_neg base h, div_right_comm, div_eq_mul_inv (num : ℚ)]

theorem roundDivPow_congr {num' den' : Nat} (hbase : 0 < base) (hden : 0 < den)
    (hden' : 0 < den') (h : (num : ℚ) / den = num' / den') :
    roundDivPow base k num den = roundDivPow base k num' den' := by
  rw [roundDivPow_eq_roundDiv, roundDivPow_eq_roundDiv]
  refine roundDiv_congr (inSteps_pos hbase hden) (inSteps_pos hbase hden') ?_
  rw [value_inSteps, value_inSteps, h]

theorem one_le_floorDivPow_iff (hbase : 0 < base) (hden : 0 < den) :
    1 ≤ floorDivPow base k num den ↔ (base : ℚ) ^ k ≤ (num : ℚ) / den := by
  have hpos : 0 < (base : ℚ) ^ k := by positivity
  have hsteps : 0 < (inSteps base k num den).2 := inSteps_pos hbase hden
  rw [floorDivPow_eq_div, Nat.one_le_div_iff hsteps, ← one_le_div hpos, ← value_inSteps,
    one_le_div (by positivity), Nat.cast_le]

end Steps

/-! ## The binary order -/

/-- The logarithm of what lies between two powers. -/
theorem log_eq_of_between {q : ℚ} {k : Int} (hlow : (2 : ℚ) ^ k ≤ q) (hhigh : q < 2 ^ (k + 1)) :
    Int.log 2 q = k := by
  have hpos : 0 < q := lt_of_lt_of_le (by positivity) hlow
  have hle : k ≤ Int.log 2 q :=
    (Int.zpow_le_iff_le_log Nat.one_lt_two hpos).mp (by exact_mod_cast hlow)
  have hlt : Int.log 2 q < k + 1 :=
    (Int.lt_zpow_iff_log_lt Nat.one_lt_two hpos).mp (by exact_mod_cast hhigh)
  omega

/-- A number lies between the powers that its length gives. -/
theorem between_log2 {n : Nat} (h : 0 < n) :
    (2 : ℚ) ^ (n.log2 : Int) ≤ n ∧ (n : ℚ) < 2 ^ ((n.log2 : Int) + 1) := by
  have hpow (k : Nat) : (2 : ℚ) ^ (k : Int) = ((2 ^ k : Nat) : ℚ) := by
    rw [zpow_natCast, Nat.cast_pow, Nat.cast_ofNat]
  rw [← Nat.cast_succ, hpow, hpow]
  exact_mod_cast And.intro (Nat.log2_self_le h.ne') Nat.lt_log2_self

/-- The lengths of a quotient's parts tell its order, or one too many. -/
theorem between_log2_sub {num den : Nat} (hnum : 0 < num) (hden : 0 < den) :
    (2 : ℚ) ^ ((num.log2 : Int) - den.log2 - 1) ≤ num / den
      ∧ (num : ℚ) / den < 2 ^ ((num.log2 : Int) - den.log2 + 1) := by
  obtain ⟨hnumLow, hnumHigh⟩ := between_log2 hnum
  obtain ⟨hdenLow, hdenHigh⟩ := between_log2 hden
  have hdenPos : (0 : ℚ) < den := by exact_mod_cast hden
  generalize hguess : (num.log2 : Int) - den.log2 = guess
  constructor
  · rw [le_div_iff₀ hdenPos]
    calc (2 : ℚ) ^ (guess - 1) * den
        ≤ 2 ^ (guess - 1) * 2 ^ ((den.log2 : Int) + 1) := by gcongr
      _ = 2 ^ (num.log2 : Int) := by
        rw [← zpow_add₀ two_ne_zero]
        congr 1
        omega
      _ ≤ num := hnumLow
  · rw [div_lt_iff₀ hdenPos]
    calc (num : ℚ) < 2 ^ ((num.log2 : Int) + 1) := hnumHigh
      _ = 2 ^ (guess + 1) * 2 ^ (den.log2 : Int) := by
        rw [← zpow_add₀ two_ne_zero]
        congr 1
        omega
      _ ≤ 2 ^ (guess + 1) * den := by gcongr

/-- **The binary order of a quotient is its logarithm**, so it depends on the
value alone. -/
theorem binaryOrder_eq_log {num den : Nat} (hnum : 0 < num) (hden : 0 < den) :
    binaryOrder num den = Int.log 2 ((num : ℚ) / den) := by
  obtain ⟨hlow, hhigh⟩ := between_log2_sub hnum hden
  unfold binaryOrder
  dsimp only
  generalize (num.log2 : Int) - den.log2 = guess at hlow hhigh ⊢
  have hreached : 1 ≤ floorDivPow 2 guess num den ↔ ((2 : Nat) : ℚ) ^ guess ≤ (num : ℚ) / den :=
    one_le_floorDivPow_iff Nat.two_pos hden
  split
  · rename_i h
    exact (log_eq_of_between (by exact_mod_cast hreached.mp h) hhigh).symm
  · rename_i h
    refine (log_eq_of_between hlow ?_).symm
    rw [Int.sub_add_cancel]
    exact_mod_cast not_le.mp fun hle => h (hreached.mpr hle)

namespace Binary64

/-! ## The nearest double -/

/-- The step of the doubles around a value. -/
def spacing (q : ℚ) : Int :=
  max (Int.log 2 q - 52) leastExponent

/-- The magnitude bits of so many steps. -/
def magnitudeOf (step : Int) (steps : Nat) : Nat :=
  min ((step - leastExponent).toNat * Nat.pow 2 52 + steps) infinityBits

theorem nearestMagnitude_zero (den : Nat) : nearestMagnitude 0 den = 0 :=
  if_pos rfl

theorem nearestMagnitude_eq {num den : Nat} (hnum : 0 < num) (hden : 0 < den) :
    nearestMagnitude num den
      = magnitudeOf (spacing ((num : ℚ) / den))
          (roundDivPow 2 (spacing ((num : ℚ) / den)) num den) := by
  rw [nearestMagnitude, if_neg hnum.ne', binaryOrder_eq_log hnum hden]
  rfl

/-- **The double nearest to a quotient depends on its value alone.** -/
theorem nearestMagnitude_congr {num den num' den' : Nat} (hden : 0 < den) (hden' : 0 < den')
    (h : (num : ℚ) / den = num' / den') :
    nearestMagnitude num den = nearestMagnitude num' den' := by
  have hdenQ : (den : ℚ) ≠ 0 := by positivity
  have hdenQ' : (den' : ℚ) ≠ 0 := by positivity
  rcases Nat.eq_zero_or_pos num with rfl | hnum
  · rw [Nat.cast_zero, zero_div, eq_comm, div_eq_zero_iff, or_iff_left hdenQ'] at h
    rw [Nat.cast_eq_zero.mp h, nearestMagnitude_zero, nearestMagnitude_zero]
  · have hnum' : 0 < num' := by
      have hpos : (0 : ℚ) < (num' : ℚ) / den' := by
        rw [← h]
        positivity
      exact num_pos_of_value_pos hpos
    have hround := roundDivPow_congr (k := spacing ((num : ℚ) / den)) Nat.two_pos hden hden' h
    rw [nearestMagnitude_eq hnum hden, nearestMagnitude_eq hnum' hden', ← h, hround]

/-- A value beyond every finite double. -/
theorem nearestMagnitude_of_large {num den : Nat} (hnum : 0 < num) (hden : 0 < den)
    (h : (10 : ℚ) ^ decimalCeiling ≤ num / den) : nearestMagnitude num den = infinityBits := by
  have hpow : 2 ^ 1029 ≤ 10 ^ 310 := by decide +kernel
  have hlog : (1029 : Nat) ≤ Int.log 2 ((num : ℚ) / den) := by
    refine (Int.zpow_le_iff_le_log Nat.one_lt_two (by positivity)).mp (le_trans ?_ h)
    show ((2 : Nat) : ℚ) ^ ((1029 : Nat) : Int) ≤ (10 : ℚ) ^ ((310 : Nat) : Int)
    rw [zpow_natCast, zpow_natCast]
    exact_mod_cast hpow
  rw [nearestMagnitude_eq hnum hden]
  refine Nat.min_eq_right ?_
  have hstep : 2047 ≤ (spacing ((num : ℚ) / den) - leastExponent).toNat := by
    rw [spacing, leastExponent]
    omega
  calc infinityBits = 2047 * Nat.pow 2 52 := by decide
    _ ≤ (spacing ((num : ℚ) / den) - leastExponent).toNat * Nat.pow 2 52 :=
      Nat.mul_le_mul_right _ hstep
    _ ≤ _ := Nat.le_add_right _ _

/-- A value nearer to zero than to every other double. -/
theorem nearestMagnitude_of_small {num den : Nat} (hnum : 0 < num) (hden : 0 < den)
    (h : (num : ℚ) / den < 10 ^ decimalFloor) : nearestMagnitude num den = 0 := by
  have hpow : 2 ^ 1090 < 10 ^ 330 := by decide +kernel
  have hsmall : (num : ℚ) / den < 2 ^ (-1090 : Int) := by
    refine h.trans ?_
    show (10 : ℚ) ^ (-(330 : Nat) : Int) < 2 ^ (-(1090 : Nat) : Int)
    rw [zpow_neg, zpow_neg, inv_lt_inv₀ (by positivity) (by positivity)]
    exact_mod_cast hpow
  have hlog : Int.log 2 ((num : ℚ) / den) < -1090 :=
    (Int.lt_zpow_iff_log_lt Nat.one_lt_two (by positivity)).mp (by exact_mod_cast hsmall)
  have hspacing : spacing ((num : ℚ) / den) = -1074 := by
    rw [spacing, leastExponent]
    omega
  have hround : roundDivPow 2 (-1074) num den = 0 := by
    have hpos : 0 < (inSteps 2 (-1074) num den).2 := inSteps_pos Nat.two_pos hden
    rw [roundDivPow_eq_roundDiv]
    refine roundDiv_eq_zero ?_
    have hvalue : ((inSteps 2 (-1074) num den).1 : ℚ) / (inSteps 2 (-1074) num den).2 < 1 / 2 := by
      rw [value_inSteps, div_lt_iff₀ (by positivity), Nat.cast_ofNat, one_div,
        ← zpow_neg_one, ← zpow_add₀ two_ne_zero]
      exact hsmall.trans (zpow_lt_zpow_right₀ one_lt_two (by decide))
    rw [div_lt_div_iff₀ (by positivity) two_pos, one_mul, mul_comm] at hvalue
    exact_mod_cast hvalue
  rw [nearestMagnitude_eq hnum hden, hspacing, hround]
  rfl

/-! ## A double is its own rounding -/

/-- A significand and an exponent as the bits of a finite double give them. -/
structure IsNormalForm (m : Nat) (e : Int) : Prop where
  lt : m < 2 ^ 53
  least : leastExponent ≤ e
  normal : 2 ^ 52 ≤ m ∨ e = leastExponent

theorem quotient_pos (m : Nat) (e : Int) : 0 < (Decimal.quotient m e).2 := by
  unfold Decimal.quotient
  split
  · exact Nat.one_pos
  · exact Nat.pow_pos Nat.two_pos

theorem value_quotient (m : Nat) (e : Int) :
    ((Decimal.quotient m e).1 : ℚ) / (Decimal.quotient m e).2 = m * 2 ^ e := by
  unfold Decimal.quotient
  split
  · rename_i h
    rw [Nat.cast_mul, cast_pow_toNat 2 h, Nat.cast_one, div_one, Nat.cast_ofNat]
  · rename_i h
    rw [cast_pow_toNat_neg 2 h, div_inv_eq_mul, Nat.cast_ofNat]

/-- A whole number of steps is its own rounding. -/
theorem roundDivPow_quotient (m : Nat) (e : Int) :
    roundDivPow 2 e (Decimal.quotient m e).1 (Decimal.quotient m e).2 = m := by
  have hden := quotient_pos m e
  rw [roundDivPow_eq_roundDiv]
  refine Eq.trans (roundDiv_congr (inSteps_pos Nat.two_pos hden) Nat.one_pos ?_)
    ((congrArg (roundDiv · 1) (Nat.mul_one m).symm).trans (roundDiv_mul_right m Nat.one_pos))
  rw [value_inSteps, value_quotient, Nat.cast_ofNat, Nat.cast_one, div_one,
    mul_div_cancel_right₀ _ (by positivity)]

/-- **The bits of a double are those of the double nearest to its value.** -/
theorem IsNormalForm.nearestMagnitude_quotient {m : Nat} {e : Int} (h : IsNormalForm m e) :
    nearestMagnitude (Decimal.quotient m e).1 (Decimal.quotient m e).2 = magnitudeOf e m := by
  obtain ⟨hlt, hleast, hnormal⟩ := h
  rcases Nat.eq_zero_or_pos m with rfl | hm
  · obtain rfl : e = leastExponent := by
      refine hnormal.resolve_left ?_
      decide
    rfl
  have hvalue : (0 : ℚ) < m * 2 ^ e := by positivity
  have hnum : 0 < (Decimal.quotient m e).1 := by
    rw [← value_quotient] at hvalue
    exact num_pos_of_value_pos hvalue
  have hspacing : spacing (m * 2 ^ e) = e := by
    have hhigh : Int.log 2 ((m : ℚ) * 2 ^ e) < (53 : Nat) + e := by
      refine (Int.lt_zpow_iff_log_lt Nat.one_lt_two hvalue).mp ?_
      rw [← cast_two_pow_mul]
      gcongr
    have hlow (hm : 2 ^ 52 ≤ m) : (52 : Nat) + e ≤ Int.log 2 ((m : ℚ) * 2 ^ e) := by
      refine (Int.zpow_le_iff_le_log Nat.one_lt_two hvalue).mp ?_
      rw [← cast_two_pow_mul]
      gcongr
    rw [spacing]
    rcases hnormal with hm | he
    · have := hlow hm
      omega
    · omega
  rw [nearestMagnitude_eq hnum (quotient_pos m e), value_quotient, hspacing, roundDivPow_quotient]

/-! ## The fields of a double -/

/-- What a sign, an exponent field and a fraction stand for. -/
def ofFields (negative : Bool) (field fraction : Nat) : Binary64 :=
  if field = 2047 then
    if fraction = 0 then .infinite negative else .nan
  else if field = 0 then .finite negative fraction leastExponent
  else .finite negative (fraction + Nat.pow 2 52) ((field : Int) - 1075)

/-- **A double is put together from its fields.** -/
theorem exists_fields (x : Float) : ∃ negative field fraction, field < 2 ^ 11
    ∧ fraction < 2 ^ 52 ∧ x = withSign negative (field * 2 ^ 52 + fraction)
    ∧ ofFloat x = ofFields negative field fraction := by
  have hbits : x.toBits.toNat < 2 ^ 64 := x.toBits.toNat_lt
  have hsign : signBit = 2 ^ 63 := rfl
  refine ⟨signBit ≤ x.toBits.toNat, x.toBits.toNat / 2 ^ 52 % 2 ^ 11, x.toBits.toNat % 2 ^ 52,
    Nat.mod_lt _ (Nat.two_pow_pos 11), Nat.mod_lt _ (Nat.two_pow_pos 52), ?_, rfl⟩
  have hsigned : (if decide (signBit ≤ x.toBits.toNat) = true
      then signBit + (x.toBits.toNat / 2 ^ 52 % 2 ^ 11 * 2 ^ 52 + x.toBits.toNat % 2 ^ 52)
      else x.toBits.toNat / 2 ^ 52 % 2 ^ 11 * 2 ^ 52 + x.toBits.toNat % 2 ^ 52)
      = x.toBits.toNat := by
    rw [hsign]
    generalize x.toBits.toNat = bits at hbits
    by_cases h : 2 ^ 63 ≤ bits
    · rw [decide_eq_true h, if_pos rfl]
      omega
    · rw [decide_eq_false h, if_neg Bool.false_ne_true]
      omega
  rw [withSign, hsigned, UInt64.ofNat_toNat]
  exact (Float.ofBits_toBits x).symm

/-- What stands for an infinity is one. -/
theorem eq_infinity_of_ofFloat {x : Float} {negative : Bool} (h : ofFloat x = .infinite negative) :
    x = infinity negative := by
  obtain ⟨sign, field, fraction, _, _, hx, hfields⟩ := exists_fields x
  rw [hfields, ofFields] at h
  split at h
  · rename_i hfield
    split at h
    · rename_i hfraction
      rw [hx, hfield, hfraction, Binary64.infinite.inj h]
      rfl
    · exact Binary64.noConfusion h
  · split at h <;> exact Binary64.noConfusion h

/-- What stands for no number is the undefined double. -/
theorem eq_undefined_of_ofFloat {x : Float} (h : ofFloat x = .nan) : x = undefined := by
  rw [ofFloat, ofBits] at h
  split at h
  · rename_i hfield
    split at h
    · exact Binary64.noConfusion h
    · rename_i hfraction
      refine isNaN_iff.mp ((isNaN_unpack_iff x.toBits.toBitVec).mpr ⟨?_, fun hzero => ?_⟩)
      · refine BitVec.eq_of_toNat_eq ?_
        rw [toNat_unpackExponent]
        exact hfield
      · refine hfraction ?_
        have hmantissa := congrArg BitVec.toNat hzero
        rw [toNat_unpackMantissa] at hmantissa
        exact hmantissa
  · split at h <;> exact Binary64.noConfusion h

/-- **The fields of a finite double are a normal form**, and its bits are those of
that many steps under its sign. -/
theorem fields_of_finite {x : Float} {negative : Bool} {m : Nat} {e : Int}
    (h : ofFloat x = .finite negative m e) :
    IsNormalForm m e ∧ withSign negative (magnitudeOf e m) = x := by
  obtain ⟨sign, field, fraction, hrange, hfraction, hx, hfields⟩ := exists_fields x
  have hweight : Nat.pow 2 52 = 2 ^ 52 := rfl
  have hleast : leastExponent = -1074 := rfl
  rw [hfields, ofFields, hweight] at h
  split at h
  · split at h <;> exact Binary64.noConfusion h
  rename_i hfinite
  -- Below an infinity the magnitude is not cut off.
  have hcut {k n : Nat} (hk : k * 2 ^ 52 + n = field * 2 ^ 52 + fraction) :
      min (k * 2 ^ 52 + n) infinityBits = field * 2 ^ 52 + fraction := by
    rw [infinityBits]
    omega
  split at h
  · rename_i hfield
    obtain ⟨rfl, rfl, rfl⟩ := Binary64.finite.inj h
    refine ⟨⟨by omega, Int.le_refl _, .inr rfl⟩, ?_⟩
    rw [hx, magnitudeOf, hweight, hcut]
    omega
  · rename_i hfield
    obtain ⟨rfl, rfl, rfl⟩ := Binary64.finite.inj h
    obtain ⟨k, rfl⟩ : ∃ k, field = k + 1 := Nat.exists_eq_succ_of_ne_zero hfield
    have hstep : (((k + 1 : Nat) : Int) - 1075 - leastExponent).toNat = k := by omega
    refine ⟨⟨by omega, by omega, .inl (by omega)⟩, ?_⟩
    rw [hx, magnitudeOf, hweight, hstep, hcut]
    ring

/-- **A double is its own rounding.** -/
theorem nearest_quotient {x : Float} {negative : Bool} {m : Nat} {e : Int}
    (h : ofFloat x = .finite negative m e) :
    nearest negative (Decimal.quotient m e).1 (Decimal.quotient m e).2 = x := by
  obtain ⟨hform, hx⟩ := fields_of_finite h
  rw [nearest, hform.nearestMagnitude_quotient, hx]

end Binary64

/-! ## Decimals of one value -/

namespace Decimal

/-- **The value of a decimal.** -/
def value (d : Decimal) : ℚ :=
  d.significand * 10 ^ d.exponent

/-- The value of a decimal is a quotient. -/
theorem exists_value_eq (d : Decimal) : ∃ num den : Nat, 0 < den ∧ d.value = num / den := by
  have hden : 0 < (inSteps 10 (-d.exponent) d.significand 1).2 :=
    inSteps_pos (by decide) Nat.one_pos
  refine ⟨(inSteps 10 (-d.exponent) d.significand 1).1, _, hden, ?_⟩
  rw [value_inSteps, Nat.cast_one, div_one, zpow_neg, div_inv_eq_mul, Nat.cast_ofNat, value]

/-- The order of a decimal is that of its first digit. -/
theorem value_between {d : Decimal} (h : d.significand ≠ 0) :
    (10 : ℚ) ^ (d.exponent + (Nat.toDigits 10 d.significand).length - 1) ≤ d.value
      ∧ d.value < 10 ^ (d.exponent + (Nat.toDigits 10 d.significand).length) := by
  generalize hdigits : (Nat.toDigits 10 d.significand).length = digits
  have hpos : 0 < digits := hdigits ▸ Nat.length_toDigits_pos
  obtain ⟨k, rfl⟩ : ∃ k, digits = k + 1 := ⟨digits - 1, by omega⟩
  have hiff {n : Nat} (hn : 0 < n) : k + 1 ≤ n ↔ d.significand < 10 ^ n :=
    hdigits ▸ Nat.length_toDigits_le_iff (by decide) hn
  have hhigh : d.significand < 10 ^ (k + 1) := (hiff (Nat.succ_pos k)).mp (Nat.le_refl _)
  have hlow : 10 ^ k ≤ d.significand := by
    rcases Nat.eq_zero_or_pos k with rfl | hk
    · exact Nat.pos_of_ne_zero h
    · exact not_lt.mp fun hlt => absurd ((hiff hk).mpr hlt) (by omega)
  have hpow (n : Nat) : (10 : ℚ) ^ (d.exponent + n) = ((10 ^ n : Nat) : ℚ) * 10 ^ d.exponent := by
    rw [zpow_add₀ (by decide), zpow_natCast, mul_comm, Nat.cast_pow, Nat.cast_ofNat]
  constructor
  · rw [Nat.cast_succ, ← add_assoc, add_sub_cancel_right, hpow, value]
    gcongr
  · rw [hpow, value]
    gcongr

end Decimal

namespace Binary64

/-- The guards of the reading only save work. -/
theorem decimalMagnitude_eq {d : Decimal} {num den : Nat} (hden : 0 < den)
    (h : d.value = num / den) : decimalMagnitude d = nearestMagnitude num den := by
  unfold decimalMagnitude
  dsimp only
  split
  · rename_i hzero
    rw [Decimal.value, hzero, Nat.cast_zero, zero_mul, eq_comm, div_eq_zero_iff] at h
    rw [Nat.cast_eq_zero.mp (h.resolve_right (by positivity)), nearestMagnitude_zero]
  rename_i hsignificand
  obtain ⟨hlow, hhigh⟩ := Decimal.value_between hsignificand
  have hnum : 0 < num := by
    have hpos : 0 < d.value := lt_of_lt_of_le (by positivity) hlow
    rw [h] at hpos
    exact num_pos_of_value_pos hpos
  split
  · rename_i hceiling
    refine (nearestMagnitude_of_large hnum hden (h ▸ le_trans ?_ hlow)).symm
    exact zpow_le_zpow_right₀ (by norm_num) hceiling
  split
  · rename_i hfloor
    refine (nearestMagnitude_of_small hnum hden (h ▸ lt_of_lt_of_le hhigh ?_)).symm
    exact zpow_le_zpow_right₀ (by norm_num) hfloor
  split
  · rename_i hexponent
    refine nearestMagnitude_congr Nat.one_pos hden (Eq.trans ?_ h)
    rw [Nat.cast_mul, cast_pow_toNat 10 hexponent, Nat.cast_one, div_one, Nat.cast_ofNat,
      Decimal.value]
  · rename_i hexponent
    refine nearestMagnitude_congr (Nat.pow_pos (by decide)) hden (Eq.trans ?_ h)
    rw [cast_pow_toNat_neg 10 hexponent, div_inv_eq_mul, Nat.cast_ofNat, Decimal.value]

/-- **Decimals of one value denote the same double.** -/
theorem decimalMagnitude_congr {d d' : Decimal} (h : d.value = d'.value) :
    decimalMagnitude d = decimalMagnitude d' := by
  obtain ⟨num, den, hden, hvalue⟩ := d'.exists_value_eq
  rw [decimalMagnitude_eq hden (h.trans hvalue), decimalMagnitude_eq hden hvalue]

end Binary64

/-! ## The shortest decimal -/

/-- The full expansion has the value that it expands. -/
theorem Decimal.value_exact (m : Nat) (e : Int) : (Decimal.exact m e).value = m * 2 ^ e := by
  unfold Decimal.exact
  split
  · rename_i h
    rw [value, Nat.cast_mul, cast_pow_toNat 2 h, zpow_zero, mul_one, Nat.cast_ofNat]
  · rename_i h
    have hfive : ((Nat.pow 5 (-e).toNat : Nat) : ℚ) = ((5 : ℚ) ^ e)⁻¹ := by
      rw [cast_pow_toNat_neg 5 h, Nat.cast_ofNat]
    have hten : (10 : ℚ) ^ e = 2 ^ e * 5 ^ e := by
      rw [← mul_zpow]
      norm_num
    rw [value, Nat.cast_mul, hfive, hten, mul_assoc, mul_left_comm _ ((2 : ℚ) ^ e),
      inv_mul_cancel₀ (by positivity), mul_one]

namespace Binary64

/-- **The shortest decimal rounds as its double does.** -/
theorem decimalMagnitude_shortest (m : Nat) (e : Int) :
    decimalMagnitude (Decimal.shortest m e)
      = nearestMagnitude (Decimal.quotient m e).1 (Decimal.quotient m e).2 := by
  unfold Decimal.shortest
  dsimp only
  split
  · rename_i d hfound
    have hreads := List.find?_some hfound
    exact beq_iff_eq.mp hreads
  · refine decimalMagnitude_eq (quotient_pos m e) ?_
    rw [value_quotient, Decimal.value_exact]

/-- The shortest decimal of a double that is not zero has digits. -/
theorem significand_shortest_ne_zero {x : Float} {negative : Bool} {m : Nat} {e : Int}
    (h : ofFloat x = .finite negative m e) (hm : m ≠ 0) :
    (Decimal.shortest m e).significand ≠ 0 := by
  intro hzero
  obtain ⟨hform, _⟩ := fields_of_finite h
  have hmagnitude := decimalMagnitude_shortest m e
  rw [decimalMagnitude, hzero, if_pos rfl, hform.nearestMagnitude_quotient, magnitudeOf,
    infinityBits] at hmagnitude
  omega

/-- **A decimal of the value of a double reads as it.** -/
theorem ofDecimal_of_value {x : Float} {negative : Bool} {m : Nat} {e : Int} {d : Decimal}
    (h : ofFloat x = .finite negative m e) (hd : d.value = m * 2 ^ e) :
    ofDecimal negative d = x := by
  rw [← value_quotient] at hd
  rw [ofDecimal, decimalMagnitude_eq (quotient_pos m e) hd]
  exact nearest_quotient h

/-- **The shortest decimal reads back**, and so does every other one of its
value. -/
theorem ofDecimal_of_value_shortest {x : Float} {negative : Bool} {m : Nat} {e : Int}
    {d : Decimal} (h : ofFloat x = .finite negative m e)
    (hd : d.value = (Decimal.shortest m e).value) : ofDecimal negative d = x := by
  rw [ofDecimal, decimalMagnitude_congr hd, decimalMagnitude_shortest]
  exact nearest_quotient h

end Binary64

/-! ## Numbers beyond all doubles -/

/-- A whole number of steps below the quotient is below its rounding. -/
theorem le_roundDiv {num den k : Nat} (hden : 0 < den) (h : k * den ≤ num) :
    k ≤ roundDiv num den := by
  have hfloor : k ≤ num / den := (Nat.le_div_iff_mul_le hden).mpr h
  rcases roundDiv_eq_or num den with h | h <;> omega

theorem roundDiv_le {num den k : Nat} (h : num < k * den) : roundDiv num den ≤ k := by
  have hfloor : num / den < k := Nat.div_lt_of_lt_mul (Nat.mul_comm k den ▸ h)
  rcases roundDiv_eq_or num den with h | h <;> omega

theorem le_roundDivPow {num den n : Nat} {k : Int} (hden : 0 < den)
    (h : (n : ℚ) * 2 ^ k ≤ num / den) : n ≤ roundDivPow 2 k num den := by
  have hsteps : 0 < (inSteps 2 k num den).2 := inSteps_pos Nat.two_pos hden
  rw [← le_div_iff₀ (by positivity), ← Nat.cast_ofNat, ← value_inSteps,
    le_div_iff₀ (by positivity)] at h
  rw [roundDivPow_eq_roundDiv]
  exact le_roundDiv hsteps (by exact_mod_cast h)

theorem roundDivPow_le {num den n : Nat} {k : Int} (hden : 0 < den)
    (h : (num : ℚ) / den < n * 2 ^ k) : roundDivPow 2 k num den ≤ n := by
  have hsteps : 0 < (inSteps 2 k num den).2 := inSteps_pos Nat.two_pos hden
  rw [← div_lt_iff₀ (by positivity), ← Nat.cast_ofNat, ← value_inSteps,
    div_lt_iff₀ (by positivity)] at h
  rw [roundDivPow_eq_roundDiv]
  exact roundDiv_le (by exact_mod_cast h)

/-- An even number is reached from half a step below it. -/
theorem even_le_roundDiv_iff {num half k : Nat} (hhalf : 0 < half) :
    2 * k ≤ roundDiv num (2 * half) ↔ 2 * k * (2 * half) ≤ num + half := by
  have hdiv : (num + half) / (2 * half)
      = num / (2 * half) + if half ≤ num % (2 * half) then 1 else 0 := by
    rw [Nat.add_div (by omega), Nat.div_eq_of_lt (by omega : half < 2 * half),
      Nat.mod_eq_of_lt (by omega : half < 2 * half), Nat.add_zero]
    congr 1
    exact if_congr (by omega) rfl rfl
  have hfloor : 2 * k * (2 * half) ≤ num + half ↔ 2 * k ≤ (num + half) / (2 * half) :=
    (Nat.le_div_iff_mul_le (by omega)).symm
  rw [hfloor, hdiv, roundDiv]
  generalize num / (2 * half) = below
  generalize num % (2 * half) = rest
  split_ifs <;> omega

namespace Binary64

section Orders

variable {num den : Nat} (hnum : 0 < num) (hden : 0 < den)
include hnum hden

/-- A quotient is compared with a power of two by its order. -/
theorem pow_mul_le_iff (n : Nat) :
    2 ^ n * den ≤ num ↔ (n : Int) ≤ Int.log 2 ((num : ℚ) / den) := by
  rw [← Int.zpow_le_iff_le_log Nat.one_lt_two (by positivity), zpow_natCast,
    le_div_iff₀ (by positivity)]
  exact_mod_cast Iff.rfl

/-- On the step of their order the steps of a quotient have 53 bits, and no more
on a coarser one. -/
theorem roundDivPow_between :
    2 ^ 52 ≤ roundDivPow 2 (Int.log 2 ((num : ℚ) / den) - 52) num den
      ∧ ∀ k, Int.log 2 ((num : ℚ) / den) - 52 ≤ k → roundDivPow 2 k num den ≤ 2 ^ 53 := by
  have hpos : (0 : ℚ) < num / den := by positivity
  constructor
  · refine le_roundDivPow hden ?_
    rw [cast_two_pow_mul, Int.zpow_le_iff_le_log Nat.one_lt_two hpos]
    omega
  · intro k hk
    refine roundDivPow_le hden ?_
    rw [cast_two_pow_mul, Int.lt_zpow_iff_log_lt Nat.one_lt_two hpos]
    omega

/-- **A quotient reaches the steps of the next order** from half a step below the
power of two that this order starts with. -/
theorem reaches_order_iff (k : Nat) :
    ((53 + k : Nat) : Int) < Int.log 2 ((num : ℚ) / den)
        ∨ Int.log 2 ((num : ℚ) / den) = (53 + k : Nat)
          ∧ 2 ^ 53 ≤ roundDivPow 2 (Int.log 2 ((num : ℚ) / den) - 52) num den
      ↔ (2 ^ 54 - 1) * (2 ^ k * den) ≤ num := by
  have hpower (n : Nat) : 2 ^ (n + k) * den = 2 ^ n * (2 ^ k * den) := by
    rw [Nat.pow_add, Nat.mul_assoc]
  have hlow := pow_mul_le_iff hnum hden (53 + k)
  have hhigh := pow_mul_le_iff hnum hden (54 + k)
  rw [hpower] at hlow hhigh
  rcases lt_trichotomy (Int.log 2 ((num : ℚ) / den)) (53 + k : Nat) with hlog | hlog | hlog
  · exact iff_of_false (by omega) (by omega)
  · have hstep : ((53 + k : Nat) : Int) - 52 = (k + 1 : Nat) := by omega
    have hround : roundDivPow 2 (k + 1 : Nat) num den = roundDiv num (2 * (2 ^ k * den)) := by
      have hfactor : den * Nat.pow 2 (k + 1) = 2 * (2 ^ k * den) := by
        show den * 2 ^ (k + 1) = _
        ring
      rw [roundDivPow, if_pos (Int.natCast_nonneg _), Int.toNat_natCast, hfactor]
    have hreached : 2 * 2 ^ 52 ≤ roundDiv num (2 * (2 ^ k * den))
        ↔ 2 * 2 ^ 52 * (2 * (2 ^ k * den)) ≤ num + 2 ^ k * den :=
      even_le_roundDiv_iff (Nat.mul_pos (Nat.two_pow_pos k) hden)
    rw [hlog, hstep, hround]
    omega
  · exact iff_of_true (.inl hlog) (by omega)

end Orders

/-- **The first whole number that is too large for a finite double**: half way
between the largest of them and the power of two behind it. -/
def wholeCeiling : Nat :=
  (2 ^ 54 - 1) * 2 ^ 970

/-- **A quotient is rounded to an infinity from the ceiling on.** -/
theorem nearestMagnitude_eq_infinityBits_iff (num : Nat) {den : Nat} (hden : 0 < den) :
    nearestMagnitude num den = infinityBits ↔ wholeCeiling * den ≤ num := by
  rcases Nat.eq_zero_or_pos num with rfl | hnum
  · have hceiling : 0 < wholeCeiling * den := Nat.mul_pos (by decide +kernel) hden
    rw [nearestMagnitude_zero]
    exact iff_of_false (by decide) (by omega)
  have hweight : Nat.pow 2 52 = 2 ^ 52 := rfl
  obtain ⟨hleast, hgreatest⟩ := roundDivPow_between hnum hden
  have hreached := reaches_order_iff hnum hden 970
  rw [nearestMagnitude_eq hnum hden, magnitudeOf, min_eq_right_iff, hweight, infinityBits,
    wholeCeiling, Nat.mul_assoc, ← hreached]
  by_cases hnormal : leastExponent ≤ Int.log 2 ((num : ℚ) / den) - 52
  · have hspacing : spacing ((num : ℚ) / den) = Int.log 2 ((num : ℚ) / den) - 52 :=
      max_eq_left hnormal
    have hsteps := hgreatest _ (Int.le_refl _)
    rw [hspacing]
    rw [leastExponent] at hnormal ⊢
    omega
  · -- Below the normal numbers there is one step, the finest.
    have hspacing : spacing ((num : ℚ) / den) = leastExponent := max_eq_right (by omega)
    have hsteps := hgreatest leastExponent (by omega)
    rw [hspacing]
    rw [leastExponent] at hnormal hsteps ⊢
    omega

/-- **A magnitude up to that of an infinity is kept as it is** under either sign. -/
theorem toNat_toBits_withSign (negative : Bool) {m : Nat} (h : m ≤ infinityBits) :
    (withSign negative m).toBits.toNat = if negative then 2 ^ 63 + m else m := by
  have hnumber : (Float.Model.pack _).isNaN = false := isNaN_withSign negative h
  have hsign : signBit = 2 ^ 63 := rfl
  generalize hword : UInt64.ofNat (if negative then signBit + m else m) = word at hnumber
  have hvalue : word.toNat = if negative then 2 ^ 63 + m else m := by
    rw [← hword, UInt64.toNat_ofNat', hsign]
    rw [infinityBits] at h
    split <;> omega
  rw [isNaN_pack, ← Bool.not_eq_true, isNaN_unpack_iff] at hnumber
  rw [withSign, hword, ← hvalue]
  show (pack .binary64 (unpack .binary64 word.toBitVec)).toNat = _
  rw [pack_unpack, isNaNBits, decide_eq_false hnumber]
  rfl

theorem isInf_infinity (negative : Bool) : (infinity negative).isInf = true := by
  cases negative <;> decide +kernel

/-- An infinity is one of the two. -/
theorem exists_eq_infinity {x : Float} (h : x.isInf = true) : ∃ negative, x = infinity negative := by
  have hx : (⟨Float.Model.pack x.toModel.unpack⟩ : Float) = x := Float.ofBits_toBits x
  have hunpack : x.toModel.unpack.isInf = true := h
  cases hu : x.toModel.unpack with
  | infinity s =>
    rw [hu] at hx
    cases s with
    | positive => exact ⟨false, hx.symm⟩
    | negative => exact ⟨true, hx.symm⟩
  | notANumber | zero _ | finite _ _ _ _ =>
    rw [hu] at hunpack
    cases hunpack

theorem isInf_withSign_iff (negative : Bool) {m : Nat} (h : m ≤ infinityBits) :
    (withSign negative m).isInf = true ↔ m = infinityBits := by
  refine ⟨fun hinf => ?_, fun hm => hm ▸ isInf_infinity negative⟩
  obtain ⟨sign, heq⟩ := exists_eq_infinity hinf
  have hbits := congrArg (fun x : Float => x.toBits.toNat) heq
  have hweight : infinityBits < 2 ^ 63 := by decide
  rw [infinity, toNat_toBits_withSign _ h, toNat_toBits_withSign _ (Nat.le_refl _)] at hbits
  split at hbits <;> split at hbits <;> omega

theorem ofFloat_infinity (negative : Bool) : ofFloat (infinity negative) = .infinite negative := by
  cases negative <;> decide +kernel

/-- **A double is finite if it stands for a finite number.** -/
theorem isFinite_iff {x : Float} :
    x.isFinite = true ↔ ∃ negative m e, ofFloat x = .finite negative m e := by
  cases h : ofFloat x with
  | nan =>
    refine iff_of_false ?_ nofun
    rw [eq_undefined_of_ofFloat h]
    decide +kernel
  | infinite negative =>
    refine iff_of_false ?_ nofun
    rw [eq_infinity_of_ofFloat h]
    cases negative <;> decide +kernel
  | finite negative m e =>
    refine iff_of_true ?_ ⟨negative, m, e, rfl⟩
    show x.toModel.unpack.isFinite = true
    cases hu : x.toModel.unpack with
    | zero s => rfl
    | finite s k q hk => rfl
    | notANumber =>
      have hnan : x.isNaN = true := congrArg Float.Model.UnpackedFloat.isNaN hu
      rw [isNaN_iff.mp hnan, ofFloat_undefined] at h
      exact nomatch h
    | infinity s =>
      obtain ⟨t, rfl⟩ := exists_eq_infinity (congrArg Float.Model.UnpackedFloat.isInf hu)
      rw [ofFloat_infinity] at h
      exact nomatch h

/-- **A whole number has a finite double** below the ceiling, and none from there
on. -/
theorem isInf_ofInt_iff (n : Int) : (ofInt n).isInf = true ↔ wholeCeiling ≤ n.natAbs :=
  (isInf_withSign_iff _ (nearestMagnitude_le _ _)).trans
    ((nearestMagnitude_eq_infinityBits_iff _ Nat.one_pos).trans (by rw [Nat.mul_one]))

end Binary64
end Reckon
