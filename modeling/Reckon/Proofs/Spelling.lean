import Mathlib
import Reckon.Json.Reader
import Reckon.Json.Writer
import Reckon.Proofs.Nearest

/-!
# Written numbers read back

A written number consists of digits, of a point with digits if it has a
fraction, and of an order if it has one: a `Spelling`. Where nothing behind it
goes on with a number, a reader that takes as much as forms one takes exactly
these parts (`Json.readNumber_text`), and what it makes of them is the decimal
that they spell.

A layout spells the value of the decimal that it lays out, wherever it puts the
point (`Layout.spells_write`), although the zeros at the end are gone. Since the
double nearest to a decimal depends on its value alone, the text of a finite
double reads back as it (`Json.readNumber_floatText`).
-/

namespace Reckon

open Json (digits wholePart fractionPart exponentPart)

/-! ## Digits -/

/-- Nothing at the front goes on with digits. -/
def EndsDigits (rest : List Char) : Prop :=
  ∀ x ∈ rest.head?, x.isDigit = false

/-- **Nothing at the front goes on with a number.** -/
def EndsNumber (rest : List Char) : Prop :=
  ∀ x ∈ rest.head?, x.isDigit = false ∧ x ≠ '.' ∧ Numeral.marksExponent x = false

theorem endsNumber_cons {c : Char}
    (h : c.isDigit = false ∧ c ≠ '.' ∧ Numeral.marksExponent c = false) (rest : List Char) :
    EndsNumber (c :: rest) :=
  fun _ hx => Option.some.inj hx ▸ h

theorem EndsNumber.endsDigits {rest : List Char} (h : EndsNumber rest) : EndsDigits rest :=
  fun x hx => (h x hx).1

/-- Digits are read up to where they end. -/
theorem digits_append {ds rest : List Char} (hds : ∀ c ∈ ds, c.isDigit = true)
    (hrest : EndsDigits rest) : digits (ds ++ rest) = ds := by
  rw [digits, List.takeWhile_append_of_pos hds]
  cases rest with
  | nil => rw [List.takeWhile_nil, List.append_nil]
  | cons x t =>
    rw [List.takeWhile_cons_of_neg (Bool.eq_false_iff.mp (hrest x rfl)), List.append_nil]

theorem isDigit_toDigits {n : Nat} {c : Char} (h : c ∈ Nat.toDigits 10 n) : c.isDigit = true :=
  Nat.isDigit_of_mem_toDigits (by decide) (by decide) h

theorem isDigit_replicate_zero {n : Nat} {c : Char} (h : c ∈ List.replicate n '0') :
    c.isDigit = true :=
  List.eq_of_mem_replicate h ▸ rfl

/-- A positive number is written without zeros in front. -/
theorem exists_toDigits {n : Nat} (hn : n ≠ 0) :
    ∃ c cs, Nat.toDigits 10 n = c :: cs ∧ c ≠ '0' := by
  induction n using Nat.strongRecOn with
  | ind n ih =>
    rw [Nat.toDigits_eq_if (by decide)]
    by_cases hlt : n < 10
    · rw [if_pos hlt]
      refine ⟨_, _, rfl, ?_⟩
      interval_cases n <;> first | exact absurd rfl hn | decide
    · obtain ⟨c, cs, hcs, hc⟩ := ih (n / 10) (by omega) (by omega)
      rw [if_neg hlt, hcs]
      exact ⟨c, _, rfl, hc⟩

/-! ## The parts of a number -/

/-- **A number in the parts that it is written in.** -/
structure Spelling where
  /-- The digits before the point. -/
  whole : List Char
  /-- The digits after it. -/
  fraction : List Char
  /-- The power of ten that is written behind. -/
  order? : Option Int
  isDigit_whole : ∀ c ∈ whole, c.isDigit = true
  isDigit_fraction : ∀ c ∈ fraction, c.isDigit = true
  /-- Zeros are not written in front. -/
  starts : whole = ['0'] ∨ ∃ c cs, whole = c :: cs ∧ c ≠ '0'

namespace Spelling

/-- The point and the digits after it, if there are any. -/
def fractionText : List Char → List Char
  | [] => []
  | ds => '.' :: ds

/-- The order, if there is one. -/
def orderText (order? : Option Int) : List Char :=
  order?.elim [] Layout.writeOrder

/-- **The number as text.** -/
def text (n : Spelling) : List Char :=
  n.whole ++ fractionText n.fraction ++ orderText n.order?

/-- **The decimal that is spelled.** -/
def decimal (n : Spelling) : Decimal :=
  (Decimal.ofDigits n.whole n.fraction).scale (n.order?.getD 0)

/-- Is the number written without fraction and order? -/
def isWhole (n : Spelling) : Bool :=
  n.fraction.isEmpty && n.order?.isNone

variable (n : Spelling) {rest : List Char}

theorem exists_cons : ∃ c cs, n.whole = c :: cs := by
  rcases n.starts with h | ⟨c, cs, h, _⟩
  · exact ⟨_, _, h⟩
  · exact ⟨_, _, h⟩

theorem whole_ne_nil : n.whole ≠ [] := by
  obtain ⟨c, cs, h⟩ := n.exists_cons
  rw [h]
  exact List.cons_ne_nil c cs

theorem wholePart_append (hrest : EndsDigits rest) : wholePart (n.whole ++ rest) = n.whole := by
  rcases n.starts with h | ⟨c, cs, h, hc⟩
  · rw [h]
    rfl
  · have hdigits := digits_append n.isDigit_whole hrest
    rw [h, List.cons_append] at hdigits ⊢
    unfold wholePart
    split
    · rename_i heq
      exact absurd (List.cons.inj heq).1 hc
    · exact hdigits

theorem endsDigits_orderText (order? : Option Int) (hrest : EndsDigits rest) :
    EndsDigits (orderText order? ++ rest) := by
  cases order? with
  | none => exact hrest
  | some k =>
    intro x hx
    obtain rfl := Option.some.inj hx
    rfl

theorem endsDigits_fractionText (ds : List Char) (hrest : EndsDigits rest) :
    EndsDigits (fractionText ds ++ rest) := by
  cases ds with
  | nil => exact hrest
  | cons d ds =>
    intro x hx
    obtain rfl := Option.some.inj hx
    rfl

theorem fractionPart_append (hrest : EndsNumber rest) :
    fractionPart (fractionText n.fraction ++ (orderText n.order? ++ rest))
      = fractionText n.fraction := by
  cases hfraction : n.fraction with
  | nil =>
    -- Without a fraction no point follows.
    show fractionPart (orderText n.order? ++ rest) = []
    unfold fractionPart
    split
    · rename_i heq
      cases horder : n.order? with
      | none =>
        rw [horder] at heq
        have hhead : rest.head? = some '.' := congrArg List.head? heq
        exact absurd rfl (hrest '.' hhead).2.1
      | some k =>
        rw [horder] at heq
        exact absurd (List.cons.inj heq).1 (by decide)
    · rfl
  | cons d ds =>
    have hdigits := digits_append n.isDigit_fraction
      (endsDigits_orderText n.order? hrest.endsDigits)
    rw [hfraction] at hdigits
    show (if (digits (d :: ds ++ _)).isEmpty then [] else '.' :: digits (d :: ds ++ _)) = _
    rw [hdigits]
    rfl

/-- The digits of an order. -/
def orderDigits (k : Int) : List Char :=
  List.replicate (2 - (Nat.toDigits 10 k.natAbs).length) '0' ++ Nat.toDigits 10 k.natAbs

theorem isDigit_orderDigits {k : Int} : ∀ c ∈ orderDigits k, c.isDigit = true := by
  intro c hc
  rcases List.mem_append.mp hc with hc | hc
  · exact isDigit_replicate_zero hc
  · exact isDigit_toDigits hc

theorem orderDigits_ne_nil (k : Int) : orderDigits k ≠ [] :=
  List.append_ne_nil_of_right_ne_nil _ Nat.toDigits_ne_nil

theorem ofDigitChars_orderDigits (k : Int) : Nat.ofDigitChars 10 (orderDigits k) 0 = k.natAbs := by
  rw [orderDigits, Nat.ofDigitChars_append, Nat.ofDigitChars_replicate_zero, Nat.mul_zero,
    Nat.ofDigitChars_ten_toDigits]

theorem exponentPart_append (order? : Option Int) (hrest : EndsNumber rest) :
    exponentPart (orderText order? ++ rest) = orderText order? := by
  cases order? with
  | none =>
    show exponentPart rest = []
    cases rest with
    | nil => rfl
    | cons x t =>
      show (if Numeral.marksExponent x then _ else []) = []
      exact if_neg (Bool.eq_false_iff.mp (hrest x rfl).2.2)
  | some k =>
    have hdigits := digits_append (isDigit_orderDigits (k := k)) hrest.endsDigits
    have hempty : (orderDigits k).isEmpty = false :=
      List.isEmpty_eq_false_iff.mpr (orderDigits_ne_nil k)
    have hread (sign : Char) (h : exponentPart ('e' :: sign :: (orderDigits k ++ rest))
        = if (digits (orderDigits k ++ rest)).isEmpty then []
          else 'e' :: sign :: digits (orderDigits k ++ rest)) :
        exponentPart ('e' :: sign :: (orderDigits k ++ rest)) = 'e' :: sign :: orderDigits k := by
      rw [h, hdigits, hempty]
      rfl
    show exponentPart ('e' :: (if k < 0 then '-' else '+') :: (orderDigits k ++ rest))
      = 'e' :: (if k < 0 then '-' else '+') :: orderDigits k
    by_cases hk : k < 0
    · rw [if_pos hk]
      exact hread '-' rfl
    · rw [if_neg hk]
      exact hread '+' rfl

/-- The whole part of a spelling ends where its point, its order or its end
is. -/
theorem text_append : n.text ++ rest
    = n.whole ++ (fractionText n.fraction ++ (orderText n.order? ++ rest)) := by
  rw [text, List.append_assoc, List.append_assoc]

/-! ## Its decimal -/

theorem ne_of_isDigit {c : Char} (h : c.isDigit = true) :
    c ≠ '.' ∧ Numeral.marksExponent c = false := by
  refine ⟨?_, Bool.eq_false_iff.mpr fun hmark => ?_⟩
  · rintro rfl
    exact absurd h (by decide)
  · rw [Numeral.marksExponent, Bool.or_eq_true, beq_iff_eq, beq_iff_eq] at hmark
    rcases hmark with rfl | rfl
    · exact absurd h (by decide)
    · exact absurd h (by decide)

theorem ofDigits?_orderDigits (k : Int) : Numeral.ofDigits? (orderDigits k) = some k.natAbs := by
  have hall : (orderDigits k).all Char.isDigit = true := List.all_eq_true.mpr isDigit_orderDigits
  have hempty : (orderDigits k).isEmpty = false :=
    List.isEmpty_eq_false_iff.mpr (orderDigits_ne_nil k)
  rw [Numeral.ofDigits?, hall, hempty, ofDigitChars_orderDigits]
  rfl

/-- The order reads back. -/
theorem readExponent?_orderDigits (k : Int) :
    Numeral.readExponent? ((if k < 0 then '-' else '+') :: orderDigits k) = some k := by
  by_cases hk : k < 0
  · rw [if_pos hk]
    show (Numeral.ofDigits? (orderDigits k)).bind (fun n => some (-(n : Int))) = some k
    rw [ofDigits?_orderDigits, Option.bind_some, Int.ofNat_natAbs_of_nonpos (by omega), Int.neg_neg]
  · rw [if_neg hk]
    show (Numeral.ofDigits? (orderDigits k)).bind (fun n => some (n : Int)) = some k
    rw [ofDigits?_orderDigits, Option.bind_some, Int.natAbs_of_nonneg (by omega)]

theorem ofRun?_append_fractionText :
    Decimal.ofRun? (n.whole ++ fractionText n.fraction)
      = some (Decimal.ofDigits n.whole n.fraction) := by
  have hwhole : ∀ c ∈ n.whole, (c != '.') = true :=
    fun c hc => bne_iff_ne.mpr (ne_of_isDigit (n.isDigit_whole c hc)).1
  have htake : (fractionText n.fraction).takeWhile (· != '.') = [] := by
    cases n.fraction <;> rfl
  have hdrop : ((fractionText n.fraction).dropWhile (· != '.')).drop 1 = n.fraction := by
    cases n.fraction <;> rfl
  have hall : (n.whole ++ n.fraction).all Char.isDigit = true := by
    rw [List.all_append, List.all_eq_true.mpr n.isDigit_whole,
      List.all_eq_true.mpr n.isDigit_fraction]
    rfl
  have hempty : (n.whole ++ n.fraction).isEmpty = false :=
    List.isEmpty_eq_false_iff.mpr (List.append_ne_nil_of_left_ne_nil n.whole_ne_nil _)
  unfold Decimal.ofRun?
  rw [List.takeWhile_append_of_pos hwhole, htake, List.append_nil,
    List.dropWhile_append_of_pos hwhole, hdrop]
  dsimp only
  rw [hall, hempty]
  rfl

/-- **A spelling reads as its decimal.** -/
theorem readDecimal?_text : Numeral.readDecimal? n.text = some n.decimal := by
  have hdigits {c : Char} (h : c.isDigit = true) : (!Numeral.marksExponent c) = true := by
    rw [(ne_of_isDigit h).2]
    rfl
  have hrun : ∀ c ∈ n.whole ++ fractionText n.fraction, (!Numeral.marksExponent c) = true := by
    intro c hc
    rcases List.mem_append.mp hc with hc | hc
    · exact hdigits (n.isDigit_whole c hc)
    · have hfraction := n.isDigit_fraction
      cases hds : n.fraction with
      | nil =>
        rw [hds] at hc
        exact absurd hc List.not_mem_nil
      | cons d ds =>
        rw [hds] at hc hfraction
        rcases List.mem_cons.mp hc with rfl | hc
        · rfl
        · exact hdigits (hfraction c hc)
  have htake : (orderText n.order?).takeWhile (fun c => !Numeral.marksExponent c) = [] := by
    cases n.order? <;> rfl
  unfold Numeral.readDecimal? text
  dsimp only
  rw [List.takeWhile_append_of_pos hrun, htake, List.append_nil, ofRun?_append_fractionText,
    List.drop_left, decimal]
  cases n.order? with
  | none =>
    show some _ = _
    rw [Option.getD_none, Decimal.scale_zero]
  | some k => exact congrArg (Option.map _) (readExponent?_orderDigits k)

end Spelling

/-! ## Reading a number -/

open Spelling

/-- A number's text under a sign. -/
def signed (negative : Bool) (s : List Char) : List Char :=
  if negative then '-' :: s else s

/-- **The reader of numbers takes a spelling and nothing else.** -/
theorem Json.readNumber_text (n : Spelling) (negative : Bool) {rest : List Char}
    (hrest : EndsNumber rest) :
    readNumber (signed negative n.text ++ rest)
      = if n.isWhole then
          if Numeral.wholeDigitLimit < n.whole.length then
            failAt (.longInteger n.whole.length) (signed negative n.text ++ rest)
          else
            .ok (.int (if negative then -(Nat.ofDigitChars 10 n.whole 0 : Int)
              else Nat.ofDigitChars 10 n.whole 0), rest)
        else .ok (.float (Binary64.ofDecimal negative n.decimal), rest) := by
  unfold readNumber
  split
  rename_i x neg body h
  -- The minus, and only it, is taken off the front.
  obtain ⟨rfl, rfl⟩ : neg = negative ∧ body = n.text ++ rest := by
    obtain ⟨c, cs, hcs⟩ := n.exists_cons
    cases negative with
    | true => exact (Prod.mk.inj h).imp Eq.symm Eq.symm
    | false =>
      have hdigit : c ≠ '-' := by
        rintro rfl
        exact absurd (n.isDigit_whole '-' (hcs ▸ List.mem_cons_self)) (by decide)
      have hfront : signed false n.text ++ rest
          = c :: (cs ++ (fractionText n.fraction ++ (orderText n.order? ++ rest))) := by
        rw [signed, if_neg Bool.false_ne_true, text_append, hcs, List.cons_append]
      split at h
      · rename_i heq
        rw [hfront] at heq
        exact absurd (List.cons.inj heq).1 hdigit
      · exact (Prod.mk.inj h).imp Eq.symm Eq.symm
  dsimp only
  have hwhole : n.whole.isEmpty = false := List.isEmpty_eq_false_iff.mpr n.whole_ne_nil
  have hparts :
      ((fractionText n.fraction).isEmpty && (orderText n.order?).isEmpty) = n.isWhole := by
    unfold isWhole
    cases n.fraction <;> cases n.order? <;> rfl
  rw [n.text_append, n.wholePart_append (endsDigits_fractionText _
      (endsDigits_orderText _ hrest.endsDigits)), List.drop_left,
    n.fractionPart_append hrest, List.drop_left, exponentPart_append _ hrest, List.drop_left,
    hwhole, hparts, ← text, n.readDecimal?_text]
  rfl

/-! ## Layouts spell the value -/

/-- **A text spells a value**, with a fraction or an order. -/
def Spells (s : List Char) (q : ℚ) : Prop :=
  ∃ n : Spelling, n.isWhole = false ∧ n.text = s ∧ n.decimal.value = q

theorem Spelling.value_decimal (n : Spelling) : n.decimal.value
    = Nat.ofDigitChars 10 (n.whole ++ n.fraction) 0
      * 10 ^ (n.order?.getD 0 - (n.fraction.length : Int)) := by
  rw [Int.sub_eq_add_neg, Int.add_comm]
  rfl

/-- Zeros behind digits are powers of ten. -/
theorem ofDigitChars_append_zeros (ds : List Char) (k : Nat) :
    Nat.ofDigitChars 10 (ds ++ List.replicate k '0') 0 = Nat.ofDigitChars 10 ds 0 * 10 ^ k := by
  rw [Nat.ofDigitChars_append, Nat.ofDigitChars_replicate_zero, Nat.mul_comm]

/-- Zeros in front of digits are nothing. -/
theorem ofDigitChars_zeros_append (k : Nat) (ds : List Char) :
    Nat.ofDigitChars 10 (List.replicate k '0' ++ ds) 0 = Nat.ofDigitChars 10 ds 0 := by
  rw [Nat.ofDigitChars_append, Nat.ofDigitChars_replicate_zero, Nat.mul_zero]

/-- Digits around a point. -/
theorem spells_point {whole fraction : List Char} (hwhole : ∀ c ∈ whole, c.isDigit = true)
    (hfraction : ∀ c ∈ fraction, c.isDigit = true)
    (hstarts : whole = ['0'] ∨ ∃ c cs, whole = c :: cs ∧ c ≠ '0') (hne : fraction ≠ []) :
    Spells (whole ++ '.' :: fraction)
      (Nat.ofDigitChars 10 (whole ++ fraction) 0 * 10 ^ (-(fraction.length : Int))) := by
  obtain ⟨d, ds, rfl⟩ := List.exists_cons_of_ne_nil hne
  refine ⟨⟨whole, d :: ds, none, hwhole, hfraction, hstarts⟩, rfl, List.append_nil _, ?_⟩
  rw [Spelling.value_decimal]
  congr 2

section Digits

variable {ds : List Char} (hdigits : ∀ c ∈ ds, c.isDigit = true)
  (hstarts : ∃ c cs, ds = c :: cs ∧ c ≠ '0')
include hdigits hstarts

/-- Digits in scientific form. -/
theorem spells_scientific (order : Int) : Spells (Layout.scientific ds order)
    (Nat.ofDigitChars 10 ds 0 * 10 ^ (order + 1 - (ds.length : Int))) := by
  obtain ⟨c, cs, rfl, hc⟩ := hstarts
  refine ⟨⟨[c], cs, some order, fun x hx => ?_, fun x hx => hdigits x (List.mem_cons_of_mem c hx),
    .inr ⟨c, [], rfl, hc⟩⟩, Bool.and_false _, ?_, ?_⟩
  · exact hdigits x (List.mem_cons.mpr (.inl (List.mem_singleton.mp hx)))
  · cases cs <;> rfl
  · rw [Spelling.value_decimal, List.length_cons]
    congr 2
    show order - (cs.length : Int) = _
    omega

/-- Digits behind the point, after zeros. -/
theorem spells_behind_zeros (zeros : Nat) :
    Spells ('0' :: '.' :: (List.replicate zeros '0' ++ ds))
      (Nat.ofDigitChars 10 ds 0 * 10 ^ (-((zeros + ds.length : Nat) : Int))) := by
  obtain ⟨c, cs, hcs, _⟩ := hstarts
  have hne : List.replicate zeros '0' ++ ds ≠ [] :=
    List.append_ne_nil_of_right_ne_nil _ (hcs ▸ List.cons_ne_nil c cs)
  have hspells := spells_point (fun x hx => List.mem_singleton.mp hx ▸ rfl)
    (fun x hx => (List.mem_append.mp hx).elim isDigit_replicate_zero (hdigits x)) (.inl rfl) hne
  have hvalue : Nat.ofDigitChars 10 (['0'] ++ (List.replicate zeros '0' ++ ds)) 0
      = Nat.ofDigitChars 10 ds 0 := ofDigitChars_zeros_append (zeros + 1) ds
  rwa [hvalue, List.length_append, List.length_replicate] at hspells

/-- Digits before the point, with zeros up to it. -/
theorem spells_before_zeros (zeros : Nat) :
    Spells (ds ++ List.replicate zeros '0' ++ ['.', '0'])
      (Nat.ofDigitChars 10 ds 0 * 10 ^ (zeros : Int)) := by
  obtain ⟨c, cs, rfl, hc⟩ := hstarts
  have hspells := spells_point
    (fun x hx => (List.mem_append.mp hx).elim (hdigits x) isDigit_replicate_zero)
    (fun x hx => List.mem_singleton.mp hx ▸ rfl)
    (.inr ⟨c, cs ++ List.replicate zeros '0', rfl, hc⟩) (List.cons_ne_nil '0' [])
  have hvalue : Nat.ofDigitChars 10 (c :: cs ++ List.replicate zeros '0' ++ ['0']) 0
      = Nat.ofDigitChars 10 (c :: cs) 0 * 10 ^ (zeros + 1) := by
    rw [List.append_assoc, ← List.replicate_succ', ofDigitChars_append_zeros]
  have hexponent : ((zeros + 1 : Nat) : Int) + -((['0'].length : Nat) : Int) = zeros := by
    rw [List.length_singleton]
    omega
  rwa [hvalue, Nat.cast_mul, Nat.cast_pow, mul_assoc, ← zpow_natCast, Nat.cast_ofNat,
    ← zpow_add₀ (by norm_num), hexponent] at hspells

/-- Digits on both sides of the point. -/
theorem spells_around {places : Nat} (hpos : 0 < places) (h : places < ds.length) :
    Spells (ds.take places ++ '.' :: ds.drop places)
      (Nat.ofDigitChars 10 ds 0 * 10 ^ ((places : Int) - (ds.length : Int))) := by
  obtain ⟨places, rfl⟩ : ∃ k, places = k + 1 := ⟨places - 1, by omega⟩
  obtain ⟨c, cs, rfl, hc⟩ := hstarts
  have hfraction : (c :: cs).drop (places + 1) ≠ [] := fun hnil =>
    absurd (List.drop_eq_nil_iff.mp hnil) (not_le.mpr h)
  have hwhole : ∃ c' cs', (c :: cs).take (places + 1) = c' :: cs' ∧ c' ≠ '0' :=
    ⟨c, cs.take places, rfl, hc⟩
  have hspells := spells_point (fun x hx => hdigits x (List.mem_of_mem_take hx))
    (fun x hx => hdigits x (List.mem_of_mem_drop hx)) (.inr hwhole) hfraction
  have hexponent : -((((c :: cs).drop (places + 1)).length : Nat) : Int)
      = ((places + 1 : Nat) : Int) - (c :: cs).length := by
    rw [List.length_drop]
    omega
  rwa [List.take_append_drop, hexponent] at hspells

/-- Digits in positional form. -/
theorem spells_positional (order : Int) : Spells (Layout.positional true ds order)
    (Nat.ofDigitChars 10 ds 0 * 10 ^ (order + 1 - (ds.length : Int))) := by
  unfold Layout.positional
  dsimp only
  by_cases horder : order < 0
  · have hexponent : order + 1 - (ds.length : Int)
        = -(((-order - 1).toNat + ds.length : Nat) : Int) := by omega
    rw [if_pos horder, hexponent]
    exact spells_behind_zeros hdigits hstarts _
  by_cases hfraction : ds.drop (order.toNat + 1) = []
  · have hlength : ds.length ≤ order.toNat + 1 := List.drop_eq_nil_iff.mp hfraction
    have hexponent : order + 1 - (ds.length : Int) = (order.toNat + 1 - ds.length : Nat) := by
      omega
    rw [if_neg horder, hfraction, List.take_of_length_le hlength, hexponent]
    exact spells_before_zeros hdigits hstarts _
  · have hlength : order.toNat + 1 < ds.length :=
      not_le.mp fun hle => hfraction (List.drop_eq_nil_iff.mpr hle)
    have hexponent : order + 1 - (ds.length : Int) = (order.toNat + 1 : Nat) - ds.length := by
      omega
    rw [if_neg horder, Nat.sub_eq_zero_of_le hlength.le, List.replicate_zero, List.append_nil,
      List.isEmpty_eq_false_iff.mpr hfraction, hexponent]
    exact spells_around hdigits hstarts (Nat.succ_pos _) hlength

end Digits

/-- The zeros at the end, and what is before them. -/
theorem exists_dropTrailingZeros (ds : List Char) :
    ∃ k, ds = Layout.dropTrailingZeros ds ++ List.replicate k '0' := by
  have hzeros : ds.reverse.takeWhile (· == '0')
      = List.replicate (ds.reverse.takeWhile (· == '0')).length '0' :=
    List.eq_replicate_of_mem fun x hx => by
      have hzero := List.mem_takeWhile_imp hx
      exact beq_iff_eq.mp hzero
  refine ⟨(ds.reverse.takeWhile (· == '0')).length, ?_⟩
  rw [Layout.dropTrailingZeros, ← List.reverse_replicate, ← hzeros, ← List.reverse_append,
    List.takeWhile_append_dropWhile, List.reverse_reverse]

/-- **The text of a decimal spells its value.** -/
theorem Layout.spells_write {d : Decimal} (h : d.significand ≠ 0) :
    Spells (Layout.plain.write d) d.value := by
  obtain ⟨k, hk⟩ := exists_dropTrailingZeros (Nat.toDigits 10 d.significand)
  generalize hkept : dropTrailingZeros (Nat.toDigits 10 d.significand) = kept at hk
  have hdigits : ∀ c ∈ kept, c.isDigit = true := fun c hc =>
    isDigit_toDigits (hk ▸ List.mem_append_left _ hc)
  have hstarts : ∃ c cs, kept = c :: cs ∧ c ≠ '0' := by
    obtain ⟨c, cs, hcs, hc⟩ := exists_toDigits h
    rw [hcs] at hk
    cases kept with
    | nil => exact absurd (List.eq_of_mem_replicate (hk ▸ List.mem_cons_self)) hc
    | cons c' cs' => exact ⟨c', cs', rfl, (List.cons.inj hk).1 ▸ hc⟩
  -- The order counts the zeros at the end as digits.
  have hvalue : d.value = Nat.ofDigitChars 10 kept 0 * 10 ^ (d.exponent
      + (Nat.toDigits 10 d.significand).length - 1 + 1 - (kept.length : Int)) := by
    have hsignificand : d.significand = Nat.ofDigitChars 10 kept 0 * 10 ^ k := by
      rw [← ofDigitChars_append_zeros, ← hk, Nat.ofDigitChars_ten_toDigits]
    rw [Decimal.value, hk, List.length_append, List.length_replicate, hsignificand, Nat.cast_mul,
      Nat.cast_pow, mul_assoc, ← zpow_natCast, Nat.cast_ofNat, ← zpow_add₀ (by norm_num)]
    congr 2
    omega
  rw [hvalue]
  unfold write
  dsimp only
  rw [hkept]
  split
  · exact spells_positional hdigits hstarts _
  · exact spells_scientific hdigits hstarts _

namespace Json

/-! ## Numbers read back -/

/-- **The text of a finite double spells it**, and not as a whole number. -/
theorem exists_spelling_floatText {x : Float} {negative : Bool} {m : Nat} {e : Int}
    (h : Binary64.ofFloat x = .finite negative m e) :
    ∃ n : Spelling, (floatText x).toList = signed negative n.text ∧ n.isWhole = false
      ∧ Binary64.ofDecimal negative n.decimal = x := by
  have hminus (s : List Char) : (withMinus negative s).toList = signed negative s :=
    String.toList_ofList
  rw [floatText, h]
  cases m with
  | zero =>
    have hdigit : ∀ c ∈ ['0'], c.isDigit = true := fun c hc => List.mem_singleton.mp hc ▸ rfl
    obtain ⟨n, hwhole, htext, hvalue⟩ :=
      spells_point hdigit hdigit (.inl rfl) (List.cons_ne_nil '0' [])
    refine ⟨n, ?_, hwhole, Binary64.ofDecimal_of_value h (hvalue.trans ?_)⟩
    · rw [htext]
      exact hminus _
    · rw [Nat.cast_zero, zero_mul]
      exact zero_mul _
  | succ m =>
    obtain ⟨n, hwhole, htext, hvalue⟩ :=
      Layout.spells_write (Binary64.significand_shortest_ne_zero h (Nat.succ_ne_zero m))
    refine ⟨n, ?_, hwhole, Binary64.ofDecimal_of_value_shortest h hvalue⟩
    rw [htext]
    exact hminus _

/-- **The text of a finite double reads back as it.** -/
theorem readNumber_floatText {x : Float} {negative : Bool} {m : Nat} {e : Int}
    (h : Binary64.ofFloat x = .finite negative m e) {rest : List Char} (hrest : EndsNumber rest) :
    readNumber ((floatText x).toList ++ rest) = .ok (.float x, rest) := by
  obtain ⟨n, htext, hwhole, hx⟩ := exists_spelling_floatText h
  rw [htext, readNumber_text n negative hrest, hwhole, if_neg Bool.false_ne_true, hx]

/-- The digits of a whole number. -/
def wholeSpelling (n : Nat) : Spelling where
  whole := Nat.toDigits 10 n
  fraction := []
  order? := none
  isDigit_whole _ hc := isDigit_toDigits hc
  isDigit_fraction _ hc := absurd hc List.not_mem_nil
  starts := by
    cases n with
    | zero => exact .inl (Nat.toDigits_zero 10)
    | succ n => exact .inr (exists_toDigits (Nat.succ_ne_zero n))

/-- The text of a whole number is its digits under its sign. -/
theorem toList_toString (n : Int) :
    (toString n).toList = signed (n < 0) (wholeSpelling n.natAbs).text := by
  have htext (k : Nat) : (wholeSpelling k).text = Nat.toDigits 10 k :=
    (List.append_nil _).trans (List.append_nil _)
  rw [htext]
  cases n with
  | ofNat k =>
    show (toString k).toList = Nat.toDigits 10 k
    rw [Nat.toString_eq_ofList_toDigits, String.toList_ofList]
  | negSucc k =>
    rw [decide_eq_true (Int.negSucc_lt_zero k)]
    show ("-" ++ toString (k + 1)).toList = '-' :: Nat.toDigits 10 (k + 1)
    rw [String.toList_append, Nat.toString_eq_ofList_toDigits, String.toList_ofList,
      String.toList_ofList]
    rfl

/-- **The text of a whole number reads back as it**, if it is not too long. -/
theorem readNumber_toString {n : Int} (h : n.natAbs < 10 ^ Numeral.wholeDigitLimit)
    {rest : List Char} (hrest : EndsNumber rest) :
    readNumber ((toString n).toList ++ rest) = .ok (.int n, rest) := by
  have hlength : ¬ Numeral.wholeDigitLimit < (Nat.toDigits 10 n.natAbs).length :=
    Nat.not_lt.mpr ((Nat.length_toDigits_le_iff (by decide) (by decide)).mpr h)
  have hsign : (if (decide (n < 0)) = true then -(n.natAbs : Int) else n.natAbs) = n := by
    simp only [decide_eq_true_eq]
    split <;> omega
  rw [toList_toString, readNumber_text _ _ hrest]
  show (if Numeral.wholeDigitLimit < (Nat.toDigits 10 n.natAbs).length then _ else
    Except.ok (Json.int (if (decide (n < 0)) = true
      then -(Nat.ofDigitChars 10 (Nat.toDigits 10 n.natAbs) 0 : Int)
      else Nat.ofDigitChars 10 (Nat.toDigits 10 n.natAbs) 0), rest)) = _
  rw [if_neg hlength, Nat.ofDigitChars_ten_toDigits, hsign]

end Json

end Reckon
