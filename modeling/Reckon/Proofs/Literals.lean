import Mathlib.Data.List.TakeWhile
import Reckon.Numeral
import Reckon.Proofs.Answers
import Reckon.Proofs.Factors
import Reckon.Proofs.Positions
import Reckon.Proofs.Readings
import Reckon.Proofs.Spelling
import Reckon.Proofs.Writing

/-!
# What a literal reads, and what it is worth

A literal takes a sign, if one is there, and digits and points for as long as
there are any. That is more than a number can be written with: there may be no
digit among them, or a second point. It is also less than the general reader of
numbers takes. That one allows for blanks, a sign of its own, an exponent, an
underscore between digits, digits of other scripts and the numbers that have
names; but every one of these needs a character that no run has. On a run the
two agree (`Numeral.readFloat?_of_numeric`), and what is left of the grammar is a
digit somewhere and one point at the most (`WritesNumber`).

Nothing else can go wrong. A run that writes a number writes one that is known
exactly (`runNumber`), of any size; the double nearest to it is a number, and an
infinity if all finite ones are too small. So a literal is undefined for its
grammar only. The sign is then a factor, and the factor does not round.
-/

namespace Reckon

/-! ## Runs -/

/-- **The characters behind the first point.** -/
def behindPoint (run : List Char) : List Char :=
  (run.dropWhile (· != '.')).drop 1

/-- **A run writes a number** if it has a digit and no second point. -/
def WritesNumber (run : List Char) : Prop :=
  (∃ x ∈ run, x.isDigit = true) ∧ run.count '.' ≤ 1

instance (run : List Char) : Decidable (WritesNumber run) :=
  decidable_of_iff (run.any Char.isDigit = true ∧ run.count '.' ≤ 1)
    (and_congr_left' List.any_eq_true)

/-- **The number that a run writes**: its digits as one whole number, and a tenth of
that for each of them behind the point. -/
def runNumber (run : List Char) : ℚ :=
  Nat.ofDigitChars 10 (run.erase '.') 0 / 10 ^ (behindPoint run).length

/-- The parts around the first point are the run without it. -/
theorem takeWhile_append_behindPoint (run : List Char) :
    run.takeWhile (· != '.') ++ behindPoint run = run.erase '.' := by
  unfold behindPoint
  induction run with
  | nil => rfl
  | cons x run ih =>
    by_cases hx : x = '.'
    · subst hx
      rw [List.erase_cons_head]
      rfl
    · have hpoint : (x != '.') = true := bne_iff_ne.mpr hx
      rw [List.takeWhile_cons_of_pos (p := (· != '.')) hpoint,
        List.dropWhile_cons_of_pos (p := (· != '.')) hpoint, List.cons_append, ih,
        List.erase_cons_tail fun h => hx (beq_iff_eq.mp h)]

section Runs

variable {run : List Char} (h : ∀ x ∈ run, isNumeric x = true)
include h

/-- It begins with nothing else. -/
theorem head?_ne_of_numeric {x : Char} (hx : isNumeric x = false) : run.head? ≠ some x :=
  fun hhead => Bool.false_ne_true (hx.symm.trans (h x (List.mem_of_head? hhead)))

/-- **A number is written if only digits are left** without the first point, and
at least one. -/
theorem writesNumber_iff : WritesNumber run
    ↔ ((run.erase '.').all Char.isDigit && !(run.erase '.').isEmpty) = true := by
  have hcount : (run.erase '.').count '.' = run.count '.' - 1 := List.count_erase_self
  rw [Bool.and_eq_true, List.all_eq_true, Bool.not_eq_true', List.isEmpty_eq_false_iff]
  constructor
  · rintro ⟨⟨x, hx, hdigit⟩, hpoints⟩
    have hnone : '.' ∉ run.erase '.' := List.count_eq_zero.mp (by omega)
    refine ⟨fun y hy => ?_, List.ne_nil_of_mem (a := x) ?_⟩
    · have hy' := Bool.or_eq_true_iff.mp (h y (List.mem_of_mem_erase hy))
      exact hy'.resolve_right fun hpoint => hnone (beq_iff_eq.mp hpoint ▸ hy)
    · exact (List.mem_erase_of_ne (Spelling.ne_of_isDigit hdigit).1).mpr hx
  · rintro ⟨hdigits, hne⟩
    obtain ⟨x, hx⟩ := List.exists_mem_of_ne_nil _ hne
    have hnone : '.' ∉ run.erase '.' := fun hpoint => absurd (hdigits '.' hpoint) (by decide)
    refine ⟨⟨x, List.mem_of_mem_erase hx, hdigits x hx⟩, ?_⟩
    have hzero := List.count_eq_zero.mpr hnone
    omega

/-- **A run that writes a number is a decimal of its value.** -/
theorem exists_ofRun? (hw : WritesNumber run) :
    ∃ d, Decimal.ofRun? run = some d ∧ d.value = runNumber run := by
  refine ⟨Decimal.ofDigits (run.takeWhile (· != '.')) (behindPoint run), ?_, ?_⟩
  · show (if (run.takeWhile (· != '.') ++ behindPoint run).all Char.isDigit
      && !(run.takeWhile (· != '.') ++ behindPoint run).isEmpty then _ else _) = _
    rw [takeWhile_append_behindPoint, (writesNumber_iff h).mp hw]
    rfl
  · rw [Decimal.value, Decimal.ofDigits, takeWhile_append_behindPoint, runNumber, zpow_neg,
      zpow_natCast, div_eq_mul_inv]

/-- A run that writes no number is not a decimal. -/
theorem ofRun?_eq_none (hw : ¬ WritesNumber run) : Decimal.ofRun? run = none := by
  show (if (run.takeWhile (· != '.') ++ behindPoint run).all Char.isDigit
    && !(run.takeWhile (· != '.') ++ behindPoint run).isEmpty then _ else _) = _
  rw [takeWhile_append_behindPoint, if_neg fun hd => hw ((writesNumber_iff h).mpr hd)]

end Runs

/-! ## Runs and the reader of numbers -/

/-- Without a blank in it a text stays as it is. -/
theorem Text.trim_eq_self {admits : Char → Bool} {s : List Char} (h : ∀ x ∈ s, admits x = false) :
    trim admits s = s := by
  have hdrop {t : List Char} (ht : ∀ x ∈ t, admits x = false) : t.dropWhile admits = t := by
    cases t with
    | nil => rfl
    | cons x t =>
      exact List.dropWhile_cons_of_neg (by rw [ht x List.mem_cons_self]; exact Bool.false_ne_true)
  rw [trim, hdrop h, hdrop fun x hx => h x (List.mem_reverse.mp hx), List.reverse_reverse]

namespace Numeral

/-- A numeric character is an ASCII digit already, has no other case and marks no
exponent. -/
theorem unchanged_of_isNumeric {x : Char} (h : isNumeric x = true) :
    asciiDigit x = x ∧ x.toLower = x ∧ marksExponent x = false := by
  obtain ⟨hlow, hhigh⟩ := toNat_of_isNumeric h
  rw [← Char.ofNat_toNat x]
  generalize x.toNat = n at hlow hhigh
  interval_cases n <;> decide

section Runs

variable {run : List Char} (h : ∀ x ∈ run, isNumeric x = true)
include h

theorem clean_of_numeric : clean run = run := by
  have htrim : Text.trim isBlank run = run := Text.trim_eq_self fun x hx => by
    rw [isBlank, Item.isBlank_of_isNumeric (h x hx), Bool.false_and]
  have hdigits (x : Char) (hx : x ∈ run) : asciiDigit x = x :=
    (unchanged_of_isNumeric (h x hx)).1
  rw [clean, htrim, List.map_congr_left hdigits, List.map_id']

theorem splitSign_of_numeric : splitSign run = (false, run) := by
  unfold splitSign
  split
  · exact absurd (h '-' List.mem_cons_self) (by decide)
  · exact absurd (h '+' List.mem_cons_self) (by decide)
  · rfl

theorem dropSeparators_of_numeric (afterDigit : Bool) :
    dropSeparators afterDigit run = some run := by
  induction run generalizing afterDigit with
  | nil => rfl
  | cons x run ih =>
    have hx : x ≠ '_' := by
      rintro rfl
      exact absurd (h '_' List.mem_cons_self) (by decide)
    rw [dropSeparators]
    · rw [ih fun y hy => h y (List.mem_cons_of_mem x hy)]
      rfl
    · exact fun c cs hcs _ => hx hcs
    · exact fun hcs _ => hx hcs

/-- A name has a letter, and a run has none. -/
theorem ofName?_of_numeric (negative : Bool) : ofName? negative run = none := by
  have hlower (x : Char) (hx : x ∈ run) : x.toLower = x :=
    (unchanged_of_isNumeric (h x hx)).2.1
  have hname {name : String} {x : Char} (hx : x ∈ name.toList) (hletter : isNumeric x = false) :
      (String.ofList run == name) = false := by
    refine beq_eq_false_iff_ne.mpr fun heq => Bool.false_ne_true (hletter.symm.trans (h x ?_))
    rwa [← heq, String.toList_ofList] at hx
  unfold ofName?
  dsimp only
  rw [List.map_congr_left hlower, List.map_id', hname (x := 'i') (by decide) rfl,
    hname (x := 'i') (by decide) rfl, hname (x := 'a') (by decide) rfl]
  rfl

theorem readDecimal?_of_numeric : readDecimal? run = Decimal.ofRun? run := by
  have htake : run.takeWhile (fun x => !marksExponent x) = run :=
    List.takeWhile_eq_self_iff.mpr fun x hx => by
      rw [(unchanged_of_isNumeric (h x hx)).2.2]
      rfl
  unfold readDecimal?
  dsimp only
  rw [htake, List.drop_length]
  cases Decimal.ofRun? run <;> rfl

/-- **On a run the reader of numbers takes decimals**, and nothing else. -/
theorem readFloat?_of_numeric :
    readFloat? run = (Decimal.ofRun? run).map (Binary64.ofDecimal false) := by
  unfold readFloat?
  rw [clean_of_numeric h, splitSign_of_numeric h]
  dsimp only
  rw [ofName?_of_numeric h, dropSeparators_of_numeric h]
  show (readDecimal? run).bind _ = _
  rw [readDecimal?_of_numeric h]
  cases Decimal.ofRun? run <;> rfl

end Runs

end Numeral

/-- Where the reader of numbers takes no number, reading the run is an error. -/
theorem Primitives.float_of_numeric {run : List Char} (h : ∀ x ∈ run, isNumeric x = true) :
    Primitives.float run = (Numeral.readFloat? run).elim (.error .value) .ok := by
  rw [Primitives.float, Numeral.readFloat?_of_numeric h]
  cases Decimal.ofRun? run <;> rfl

/-! ## What a literal is worth -/

namespace Binary64

/-- **A decimal is infinite if it is at or beyond the ceiling.** -/
theorem isInf_ofDecimal_iff (negative : Bool) (d : Decimal) :
    (ofDecimal negative d).isInf = true ↔ (wholeCeiling : ℚ) ≤ d.value := by
  obtain ⟨num, den, hden, hvalue⟩ := d.exists_value_eq
  rw [ofDecimal, isInf_withSign_iff negative (decimalMagnitude_le d),
    decimalMagnitude_eq hden hvalue, nearestMagnitude_eq_infinityBits_iff num hden, hvalue,
    le_div_iff₀ (Nat.cast_pos.mpr hden)]
  norm_cast

/-- An infinite decimal is the infinity of its sign. -/
theorem ofDecimal_eq_infinity {negative : Bool} {d : Decimal}
    (h : (ofDecimal negative d).isInf = true) : ofDecimal negative d = infinity negative := by
  rw [ofDecimal, (isInf_withSign_iff negative (decimalMagnitude_le d)).mp h, infinity]

/-- **A sign as a factor** is a sign, and does not round. -/
theorem sign_mul (negative : Bool) (y : Float) :
    (if negative then -1 else 1) * y = if negative then -y else y := by
  cases negative with
  | false => exact Binary64.one_mul y
  | true => exact Binary64.minusOne_mul y

end Binary64

/-- **What a run is worth under a sign.** -/
structure IsWorth (negative : Bool) (run : List Char) (x : Float) : Prop where
  /-- It is undefined if the run writes no number. -/
  isNaN_iff : x.isNaN = true ↔ ¬ WritesNumber run
  /-- Otherwise it is the number that the reader of numbers takes the run for, the
  double nearest to the one that the run writes, under the sign. -/
  exists_float : WritesNumber run → ∃ y, Numeral.readFloat? run = some y
    ∧ (∀ num den : Nat, 0 < den → runNumber run = num / den →
        y = Binary64.nearest false num den)
    ∧ x = (if negative then -1 else 1) * y
    ∧ x = if negative then -y else y
  /-- It is infinite if the run writes a number that is too large. -/
  isInf_iff : x.isInf = true ↔ WritesNumber run ∧ (Binary64.wholeCeiling : ℚ) ≤ runNumber run
  /-- The infinity is that of the sign. -/
  eq_infinity : x.isInf = true → x = Binary64.infinity negative

section Worth

open Binary64

variable {negative : Bool} {run : List Char}

/-- A run that writes no number is worth none. -/
theorem isWorth_undefined (hw : ¬ WritesNumber run) : IsWorth negative run undefined := by
  have hinf : undefined.isInf = false := by decide +kernel
  exact ⟨iff_of_true isNaN_undefined hw, fun hw' => absurd hw' hw,
    iff_of_false (Bool.eq_false_iff.mp hinf) fun hw' => hw hw'.1,
    fun hinfinite => absurd (hinf.symm.trans hinfinite) Bool.false_ne_true⟩

/-- **A run that writes a number is worth that number**, under the sign. -/
theorem isWorth_mul_ofDecimal (h : ∀ x ∈ run, isNumeric x = true) (hw : WritesNumber run)
    {d : Decimal} (hd : Decimal.ofRun? run = some d) (hnumber : d.value = runNumber run) :
    IsWorth negative run ((if negative then -1 else 1) * ofDecimal false d) := by
  have hsigned := sign_mul negative (ofDecimal false d)
  have hnan : ((if negative then -1 else 1) * ofDecimal false d).isNaN = false := by
    rw [hsigned]
    cases negative with
    | false => exact isNaN_ofDecimal false d
    | true => exact (isNaN_neg _).trans (isNaN_ofDecimal false d)
  have hinf : ((if negative then -1 else 1) * ofDecimal false d).isInf
      = (ofDecimal false d).isInf := by
    rw [hsigned]
    cases negative with
    | false => rfl
    | true => exact isInf_neg _
  refine ⟨iff_of_false (Bool.eq_false_iff.mp hnan) (not_not_intro hw), fun _ => ?_, ?_, ?_⟩
  · refine ⟨ofDecimal false d, ?_, fun num den hden hrun => ?_, rfl, hsigned⟩
    · rw [Numeral.readFloat?_of_numeric h, hd]
      rfl
    · rw [ofDecimal, nearest, decimalMagnitude_eq hden (hnumber.trans hrun)]
  · rw [hinf, isInf_ofDecimal_iff, hnumber, and_iff_right hw]
  · intro hinfinite
    rw [hsigned, ofDecimal_eq_infinity (hinf ▸ hinfinite)]
    cases negative with
    | false => rfl
    | true => decide +kernel

end Worth

namespace Literal

open Binary64

/-- **A literal is worth its run under its sign.** -/
theorem isWorth_value {l : Literal} (h : ∀ x ∈ l.run, isNumeric x = true) :
    IsWorth l.negative l.run (l.value : Float) := by
  by_cases hw : WritesNumber l.run
  · obtain ⟨d, hd, hnumber⟩ := exists_ofRun? h hw
    have hvalue : (l.value : Float) = (if l.negative then -1 else 1) * ofDecimal false d := by
      rw [value, decimal?, hd]
      cases l.negative <;> rfl
    rw [hvalue]
    exact isWorth_mul_ofDecimal h hw hd hnumber
  · have hvalue : (l.value : Float) = undefined := by
      rw [value, decimal?, ofRun?_eq_none h hw]
      rfl
    rw [hvalue]
    exact isWorth_undefined hw

/-- A minus goes into the value as a factor. -/
theorem value_negative (run : List Char) :
    ((⟨true, run⟩ : Literal).value : Float) = -1 * (⟨false, run⟩ : Literal).value := by
  unfold value decimal?
  dsimp only
  cases Decimal.ofRun? run with
  | none =>
    show undefined = -1 * undefined
    decide +kernel
  | some d =>
    show -1 * ofDecimal false d = -1 * (1 * ofDecimal false d)
    rw [Binary64.one_mul]

end Literal

/-! ## Reading at a cursor -/

/-- **Reads a literal**, with a lookup for every character that it goes by. -/
def Pointer.readLiteral (p : Pointer) : Except Stray (Literal × Pointer) := do
  let negative ← p.peek (· == '-')
  let signed ← if negative then pure true else p.peek (· == '+')
  let (run, q) ← (if signed then p.advance 1 else p).consumeWhile isNumeric
  return (⟨negative, run⟩, q)

theorem Cursor.readLiteral_pointer (c : Cursor) :
    c.pointer.readLiteral = .ok ((Literal.read c).1, (Literal.read c).2.pointer) := by
  have hscan (signed : Bool) :
      (if signed then c.pointer.advance 1 else c.pointer).consumeWhile isNumeric
        = .ok (((if signed then c.skip 1 else c).consumeWhile isNumeric).1,
          ((if signed then c.skip 1 else c).consumeWhile isNumeric).2.pointer) := by
    cases signed with
    | true =>
      rw [advance_pointer_one]
      exact (c.skip 1).consumeWhile_pointer isNumeric
    | false => exact c.consumeWhile_pointer isNumeric
  unfold Pointer.readLiteral Literal.read
  rw [peek_pointer]
  cases c.peek (· == '-') with
  | true =>
    show Except.bind ((if true then c.pointer.advance 1 else _).consumeWhile isNumeric) _ = _
    rw [hscan]
    rfl
  | false =>
    show (do let signed ← c.pointer.peek (· == '+'); _) = _
    rw [peek_pointer]
    show Except.bind
      ((if c.peek (· == '+') then c.pointer.advance 1 else _).consumeWhile isNumeric) _ = _
    rw [hscan]
    rfl

namespace Literal

/-- **Every text is divided at a literal.** -/
theorem exists_divides (s : List Char) : ∃ sign run behind, Divides s sign run behind := by
  have hnumeric (t : List Char) : ∀ x ∈ t.takeWhile isNumeric, isNumeric x = true :=
    fun _ => List.mem_takeWhile_imp
  have hends (t : List Char) : EndsRun (t.dropWhile isNumeric) := by
    intro x hx
    have hnot := List.head?_dropWhile_not isNumeric t
    rw [hx] at hnot
    exact hnot
  by_cases hsign : ∃ t : Sign, s.head? = some t.symbol
  · obtain ⟨t, ht⟩ := hsign
    obtain ⟨u, rfl⟩ := List.head?_eq_some_iff.mp ht
    refine ⟨some t, _, _, ?_, nofun, hnumeric u, hends u⟩
    rw [List.takeWhile_append_dropWhile]
    rfl
  · refine ⟨none, _, _, ?_, fun _ t ht => hsign ⟨t, ht⟩, hnumeric s, hends s⟩
    rw [List.takeWhile_append_dropWhile]
    rfl

/-- A run alone is a literal without a sign. -/
theorem split_of_numeric {run : List Char} (h : ∀ x ∈ run, isNumeric x = true) :
    split run = (⟨false, run⟩, []) := by
  have hdivides : Divides (Cursor.ofList run).rest none run [] := by
    refine ⟨(List.append_nil run).symm, fun _ t => ?_, h, nofun⟩
    exact head?_ne_of_numeric h t.isNumeric_symbol
  obtain ⟨hliteral, hrest⟩ := read_eq_split (Cursor.ofList run)
  rw [hdivides.read_eq] at hliteral hrest
  exact Prod.ext hliteral.symm (hrest.symm.trans hdivides.rest_eq)

end Literal

/-! ## Evaluating a run -/

section Evaluation

variable {run : List Char} (h : ∀ x ∈ run, isNumeric x = true)
include h

theorem unspaced_of_numeric : unspaced run = run :=
  unspaced_of_head? (head?_ne_of_numeric h rfl)

/-- A run is a summand. -/
theorem first_of_numeric (hne : run ≠ []) : Piece.first run = .literal .add ⟨false, run⟩ [] := by
  have hspaces := unspaced_of_numeric h
  have hsplit := Literal.split_of_numeric h
  have hhead := head?_ne_of_numeric h (x := '(') rfl
  obtain ⟨x, s, rfl⟩ := List.exists_cons_of_ne_nil hne
  have hx := h x List.mem_cons_self
  have hopen : x ≠ '(' := fun hopen => hhead (congrArg some hopen)
  rw [Piece.first, hspaces]
  dsimp only
  rw [if_neg hopen, Operator.ofChar?_of_isNumeric hx, hx, hsplit]
  rfl

/-- Behind a minus it is taken away. -/
theorem first_minus_of_numeric : Piece.first ('-' :: run) = .literal .sub ⟨false, run⟩ [] := by
  show Piece.operand .sub run = _
  rw [Piece.operand, unspaced_of_numeric h, if_neg (head?_ne_of_numeric h rfl),
    Literal.split_of_numeric h]
  rfl

/-- **A run is evaluated to its literal.** -/
theorem number_of_numeric :
    (evaluateChars (α := Float) run).1.number = (⟨false, run⟩ : Literal).value := by
  have hstrip : Text.strip run = run :=
    Text.trim_eq_self fun x hx => Item.isBlank_of_isNumeric (h x hx)
  refine Reads.number_eq (r := leftBehind false []) ?_
  rw [hstrip]
  by_cases hne : run = []
  · subst hne
    exact .stop rfl
  · exact .literal (first_of_numeric h hne) (.stop rfl)

/-- **With a minus in front a run is evaluated to the literal with that sign.** -/
theorem number_minus_of_numeric :
    (evaluateChars (α := Float) ('-' :: run)).1.number = (⟨true, run⟩ : Literal).value := by
  have hstrip : Text.strip ('-' :: run) = '-' :: run := by
    refine Text.trim_eq_self fun x hx => ?_
    rcases List.mem_cons.mp hx with rfl | hx
    · decide
    · exact Item.isBlank_of_isNumeric (h x hx)
  rw [Literal.value_negative]
  refine Reads.number_eq (r := leftBehind false []) ?_
  rw [hstrip]
  exact .literal (first_minus_of_numeric h) (.stop rfl)

end Evaluation

/-- **Literals are signed decimals, and nothing else.** At every cursor a literal
is a sign, if there is one, and the digits and points behind it up to where none
comes next. It is read without a lookup that strays, the cursor passes it and
nothing more, and no error of reading the number is left over. It is undefined
only for want of a digit or for a second point. Otherwise it is the number that
the reader of numbers takes its run for, under the sign, and an infinity if that
number is too large.

So is the value of a text that is a run, and with a minus in front it is the
opposite one. -/
theorem Literal.reads_decimals :
    (∀ c : Cursor, ∃ sign run behind, Divides c.rest sign run behind
      ∧ (let l : Literal := ⟨sign = some .minus, run⟩
        let d := (c.skip (Item.signText sign).length).read run.length
        c.pointer.readLiteral = .ok (l, d.pointer)
          ∧ read c = (l, d)
          ∧ d.text = c.text
          ∧ d.rest = behind
          ∧ Primitives.float run = (Numeral.readFloat? run).elim (.error .value) .ok
          ∧ (∀ P : Primitives, P.literal l = .ok (l.value : Float))
          ∧ IsWorth l.negative l.run l.value))
      ∧ ∀ s : String, (∀ x ∈ s.toList, isNumeric x = true) →
          IsWorth false s.toList (evaluate s) ∧ IsWorth true s.toList (evaluate ("-" ++ s)) := by
  refine ⟨fun c => ?_, fun s hs => ⟨?_, ?_⟩⟩
  · obtain ⟨sign, run, behind, hdivides⟩ := exists_divides c.rest
    have hread := hdivides.read_eq
    refine ⟨sign, run, behind, hdivides, ?_, hread, ?_,
      hdivides.rest_eq, Primitives.float_of_numeric hdivides.numeric, fun P => P.literal_eq _,
      isWorth_value hdivides.numeric⟩
    · rw [c.readLiteral_pointer, hread]
    · rw [Cursor.text_read, Cursor.text_skip]
  · have hvalue : evaluate s = (⟨false, s.toList⟩ : Literal).value := number_of_numeric hs
    rw [hvalue]
    exact isWorth_value (l := ⟨false, s.toList⟩) hs
  · have hvalue : evaluate ("-" ++ s) = (⟨true, s.toList⟩ : Literal).value := by
      unfold evaluate
      rw [String.toList_append]
      exact number_minus_of_numeric hs
    rw [hvalue]
    exact isWorth_value (l := ⟨true, s.toList⟩) hs

/-- Zeros around a number do not matter. -/
theorem Literal.reads_decimals_padded : evaluate "00.50" = 0.5 ∧ evaluate "-00.50" = -0.5 := by
  have hnumeric : "00.50".toList.all isNumeric = true := by decide
  obtain ⟨hplus, hminus⟩ := Literal.reads_decimals.2 "00.50" (List.all_eq_true.mp hnumeric)
  have hwrites : WritesNumber "00.50".toList := by decide
  have hfloat : Numeral.readFloat? "00.50".toList = some 0.5 := by decide +kernel
  obtain ⟨y, hy, _, _, heq⟩ := hplus.exists_float hwrites
  obtain ⟨z, hz, _, _, hneg⟩ := hminus.exists_float hwrites
  obtain rfl := Option.some.inj (hfloat.symm.trans hy)
  obtain rfl := Option.some.inj (hfloat.symm.trans hz)
  exact ⟨heq, hneg⟩

end Reckon
