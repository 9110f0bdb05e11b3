import Reckon.Program
import Reckon.Proofs.Nearest
import Reckon.Proofs.Traversals

/-!
# Digits that settings ask for

The settings take any positive whole number for the number of digits, and fall back
to the default on everything else. Showing a result takes less: from `2 ^ 31` digits
on a finite double is refused, and so the number that the settings accepted for it.
Between the two there is no third check, so this is also what stops a command
(`Settings.shows_iff`): an expression with a finite value, or a batch with one among
its lines.

An undefined or an infinite result is shown by its name, whatever the number is.
-/

namespace Reckon

open Binary64

/-! ## Showing a result -/

section Showing

variable {p : Nat} {x : Float}

/-- A number of digits is refused from 31 bits on, and in other words from 63. -/
theorem checkPrecision_eq_error_iff {e : PrecisionError} : checkPrecision p = .error e
    ↔ e = .tooBig ∧ 2 ^ 31 ≤ p ∧ p < 2 ^ 63 ∨ e = .tooManyDigits ∧ 2 ^ 63 ≤ p := by
  have hwide : Nat.pow 2 63 = 2 ^ 63 := rfl
  have hnarrow : Nat.pow 2 31 = 2 ^ 31 := rfl
  rw [checkPrecision, if_neg (Int.not_lt.mpr (Int.natCast_nonneg p)), Int.toNat_natCast, hwide,
    hnarrow]
  by_cases h63 : 2 ^ 63 ≤ p
  · rw [if_pos h63]
    constructor
    · intro h
      exact .inr ⟨(Except.error.inj h).symm, h63⟩
    · rintro (⟨-, -, hlt⟩ | ⟨rfl, -⟩)
      · exact absurd h63 (Nat.not_le.mpr hlt)
      · rfl
  · by_cases h31 : 2 ^ 31 ≤ p
    · rw [if_neg h63, if_pos h31]
      constructor
      · intro h
        exact .inl ⟨(Except.error.inj h).symm, h31, Nat.lt_of_not_le h63⟩
      · rintro (⟨rfl, -, -⟩ | ⟨-, hle⟩)
        · rfl
        · exact absurd hle h63
    · rw [if_neg h63, if_neg h31]
      refine iff_of_false nofun ?_
      rintro (⟨-, hle, -⟩ | ⟨-, hle⟩)
      · exact h31 hle
      · exact h63 hle

/-- **Why a result is not shown**: it has digits, and the number of them is
refused. -/
theorem formatValue_eq_error_iff {e : PrecisionError} :
    formatValue p x = .error e ↔ x.isFinite = true
      ∧ (e = .tooBig ∧ 2 ^ 31 ≤ p ∧ p < 2 ^ 63 ∨ e = .tooManyDigits ∧ 2 ^ 63 ≤ p) := by
  rw [formatValue, isFinite_iff, ← checkPrecision_eq_error_iff]
  cases ofFloat x with
  | nan => exact iff_of_false nofun fun ⟨⟨_, _, _, h⟩, _⟩ => nomatch h
  | infinite negative => exact iff_of_false nofun fun ⟨⟨_, _, _, h⟩, _⟩ => nomatch h
  | finite negative m q =>
    rw [and_iff_right ⟨negative, m, q, rfl⟩]
    dsimp only
    cases checkPrecision p with
    | ok k => exact iff_of_false nofun nofun
    | error e' => exact ⟨fun h => congrArg Except.error (Except.error.inj h),
        fun h => congrArg Except.error (Except.error.inj h)⟩

/-- **A result is shown** unless it has digits and too many are asked for. -/
theorem exists_formatValue_iff :
    (∃ text, formatValue p x = .ok text) ↔ ¬ (2 ^ 31 ≤ p ∧ x.isFinite = true) := by
  rw [exists_eq_ok_iff]
  constructor
  · rintro h ⟨hp, hx⟩
    by_cases h63 : 2 ^ 63 ≤ p
    · exact h .tooManyDigits (formatValue_eq_error_iff.mpr ⟨hx, .inr ⟨rfl, h63⟩⟩)
    · exact h .tooBig (formatValue_eq_error_iff.mpr ⟨hx, .inl ⟨rfl, hp, Nat.lt_of_not_le h63⟩⟩)
  · rintro h e he
    obtain ⟨hx, ⟨-, hp, -⟩ | ⟨-, hp⟩⟩ := formatValue_eq_error_iff.mp he
    · exact h ⟨hp, hx⟩
    · exact h ⟨Nat.le_trans (Nat.pow_le_pow_right Nat.two_pos (by decide)) hp, hx⟩

/-- **A batch is listed** if every outcome of it is shown. -/
theorem exists_listOutcomes_iff {outcomes : List Outcome} :
    (∃ events, listOutcomes p outcomes = .ok events)
      ↔ ∀ o ∈ outcomes, ∃ text, formatValue p o.value = .ok text := by
  have hrow (o : Outcome) (number : Nat) : (∃ row, outcomeRow p number o = .ok row)
      ↔ ∃ text, formatValue p o.value = .ok text := by
    constructor
    · rintro ⟨row, h⟩
      obtain ⟨text, htext, -⟩ := bind_eq_ok_iff.mp h
      exact ⟨text, htext⟩
    · rintro ⟨text, h⟩
      exact ⟨_, bind_eq_ok_iff.mpr ⟨text, h, rfl⟩⟩
  cases outcomes with
  | nil => exact iff_of_true ⟨_, rfl⟩ (List.forall_mem_nil _)
  | cons o os =>
    have hlist : (∃ events, listOutcomes p (o :: os) = .ok events)
        ↔ ∃ rows, ((o :: os).zipIdx 1).mapM (fun row => outcomeRow p row.2 row.1) = .ok rows := by
      constructor
      · rintro ⟨events, h⟩
        obtain ⟨rows, hrows, -⟩ := bind_eq_ok_iff.mp h
        exact ⟨rows, hrows⟩
      · rintro ⟨rows, h⟩
        exact ⟨_, bind_eq_ok_iff.mpr ⟨rows, h, rfl⟩⟩
    rw [hlist, exists_mapM_eq_ok_iff]
    constructor
    · intro h o' ho'
      rw [← List.zipIdx_map_fst 1 (o :: os)] at ho'
      obtain ⟨⟨_, number⟩, hmem, rfl⟩ := List.mem_map.mp ho'
      exact (hrow _ number).mp (h _ hmem)
    · rintro h ⟨o', number⟩ hmem
      exact (hrow o' number).mpr (h o' (List.zipIdx_map_fst 1 (o :: os) ▸ List.mem_map_of_mem hmem))

end Showing

/-! ## The outcome of an expression -/

/-- A finite value is one that can be had. -/
theorem unwrap_tryEvaluate {strict : Bool} {text : String}
    (h : (tryEvaluate strict text).value.isFinite = true) :
    (tryEvaluate strict text).unwrap = .ok (tryEvaluate strict text).value := by
  have hnan : (tryEvaluate strict text).value.isNaN = false := by
    obtain ⟨negative, m, e, hfinite⟩ := isFinite_iff.mp h
    rw [← Bool.not_eq_true, isNaN_iff]
    intro hundefined
    rw [hundefined, ofFloat_undefined] at hfinite
    exact nomatch hfinite
  have hbalanced : (tryEvaluate strict text).balanced = true := by
    unfold tryEvaluate at h ⊢
    dsimp only at h ⊢
    split at h
    · have hundefined : undefined.isFinite = false := by decide +kernel
      exact absurd (hundefined.symm.trans h) Bool.false_ne_true
    · rename_i hrefused
      rw [if_neg hrefused]
  rw [Outcome.unwrap, Outcome.isOk, Outcome.verdict, hbalanced, hnan]
  rfl

/-! ## Commands -/

namespace Program

variable {settings : Settings} {text : String} {strict : Bool}

/-- **An evaluation prints or reports** unless its value is finite and too many digits
are set. -/
theorem exists_eval_iff : (∃ finish, eval settings text strict none = .ok finish)
    ↔ ¬ (2 ^ 31 ≤ settings.precision
      ∧ (tryEvaluate (strict || settings.strictBrackets) text).value.isFinite = true) := by
  unfold eval
  dsimp only
  cases hvalue : (tryEvaluate (strict || settings.strictBrackets) text).unwrap with
  | ok x =>
    have hx : (tryEvaluate (strict || settings.strictBrackets) text).value = x := by
      unfold Outcome.unwrap at hvalue
      split at hvalue
      · exact Except.ok.inj hvalue
      · exact nomatch hvalue
    rw [hx, ← exists_formatValue_iff]
    constructor
    · rintro ⟨finish, h⟩
      obtain ⟨shown, hshown, -⟩ := bind_eq_ok_iff.mp h
      exact ⟨shown, hshown⟩
    · rintro ⟨shown, h⟩
      exact ⟨_, bind_eq_ok_iff.mpr ⟨shown, h, rfl⟩⟩
  | error e =>
    refine iff_of_true ⟨_, rfl⟩ fun ⟨_, hfinite⟩ => ?_
    rw [unwrap_tryEvaluate hfinite] at hvalue
    exact nomatch hvalue

/-- **A batch is listed** unless one of its values is finite and too many digits are
set. -/
theorem exists_batch_iff : (∃ finish, batch settings text strict = .ok finish)
    ↔ ¬ (2 ^ 31 ≤ settings.precision
      ∧ ∃ o ∈ runBatch (strict || settings.strictBrackets) (Text.lines text),
        o.value.isFinite = true) := by
  have hlist : (∃ finish, batch settings text strict = .ok finish)
      ↔ ∃ events, listOutcomes settings.precision
        (runBatch (strict || settings.strictBrackets) (Text.lines text)) = .ok events := by
    constructor
    · rintro ⟨finish, h⟩
      obtain ⟨events, hevents, -⟩ := bind_eq_ok_iff.mp h
      exact ⟨events, hevents⟩
    · rintro ⟨events, h⟩
      exact ⟨_, bind_eq_ok_iff.mpr ⟨events, h, rfl⟩⟩
  rw [hlist, exists_listOutcomes_iff]
  constructor
  · rintro h ⟨hp, o, ho, hfinite⟩
    exact exists_formatValue_iff.mp (h o ho) ⟨hp, hfinite⟩
  · intro h o ho
    exact exists_formatValue_iff.mpr fun ⟨hp, hfinite⟩ => h ⟨hp, o, ho, hfinite⟩

end Program

/-! ## Settings -/

namespace Settings

/-- The number of digits that an environment asks for, if it writes a whole
number. -/
def digitsAsked (environment : Environment) : Option Int :=
  (environment precisionName).bind fun raw => Numeral.readInt? raw.toList

/-- **An environment asks for more digits** than any finite result is shown with. -/
def AsksTooMuch (environment : Environment) : Prop :=
  ∃ n, digitsAsked environment = some n ∧ 2 ^ 31 ≤ n

/-- **The settings take a positive number of digits**, and the default instead of
anything else. -/
theorem precision_load (environment : Environment) : (load environment).precision
    = match digitsAsked environment with
      | some n => if 0 < n then n.toNat else defaultPrecision
      | none => defaultPrecision :=
  rfl

/-- A number above the default is one that was asked for. -/
theorem le_precision_load_iff {environment : Environment} {k : Nat} (hk : defaultPrecision < k) :
    k ≤ (load environment).precision
      ↔ ∃ n, digitsAsked environment = some n ∧ (k : Int) ≤ n := by
  rw [precision_load]
  cases digitsAsked environment with
  | none => exact iff_of_false (Nat.not_le.mpr hk) nofun
  | some n =>
    have hn : (∃ n', some n = some n' ∧ (k : Int) ≤ n') ↔ (k : Int) ≤ n :=
      ⟨fun ⟨_, h, hle⟩ => Option.some.inj h ▸ hle, fun h => ⟨n, rfl, h⟩⟩
    rw [hn]
    dsimp only
    split
    · rename_i hpositive
      exact Int.le_toNat (Int.le_of_lt hpositive)
    · rw [defaultPrecision] at hk ⊢
      omega

/-- **Settings show every result** unless too many digits are asked for and the
result has digits. They return whatever the environment holds, with the default
number of digits if it asks for none that is positive. A number of `2 ^ 31` or more
is accepted all the same, and then showing a finite result fails; so do the
evaluation of an expression that has one, and the listing of a batch that has one
among its outcomes. -/
theorem shows_iff (environment : Environment) :
    let settings := load environment
    ((∀ n, digitsAsked environment = some n → n ≤ 0) → settings.precision = defaultPrecision)
      ∧ (∀ x, (∃ text, formatValue settings.precision x = .ok text)
        ↔ ¬ (AsksTooMuch environment ∧ x.isFinite = true))
      ∧ (∀ x e, formatValue settings.precision x = .error e ↔ x.isFinite = true
        ∧ ∃ n, digitsAsked environment = some n
          ∧ (e = .tooBig ∧ 2 ^ 31 ≤ n ∧ n < 2 ^ 63 ∨ e = .tooManyDigits ∧ 2 ^ 63 ≤ n))
      ∧ (∀ text strict, (∃ finish, Program.eval settings text strict none = .ok finish)
        ↔ ¬ (AsksTooMuch environment
          ∧ (tryEvaluate (strict || settings.strictBrackets) text).value.isFinite = true))
      ∧ (∀ text strict, (∃ finish, Program.batch settings text strict = .ok finish)
        ↔ ¬ (AsksTooMuch environment
          ∧ ∃ o ∈ runBatch (strict || settings.strictBrackets) (Text.lines text),
            o.value.isFinite = true)) := by
  intro settings
  have hasks : 2 ^ 31 ≤ settings.precision ↔ AsksTooMuch environment :=
    le_precision_load_iff (by decide)
  have hwide : 2 ^ 63 ≤ settings.precision
      ↔ ∃ n, digitsAsked environment = some n ∧ 2 ^ 63 ≤ n :=
    le_precision_load_iff (by decide)
  refine ⟨fun h => ?_, fun x => ?_, fun x e => ?_, fun text strict => ?_, fun text strict => ?_⟩
  · show (load environment).precision = _
    rw [precision_load]
    cases hn : digitsAsked environment with
    | none => rfl
    | some n => exact if_neg (Int.not_lt.mpr (h n hn))
  · rw [exists_formatValue_iff, hasks]
  · rw [formatValue_eq_error_iff, ← Nat.not_le, hasks, hwide, AsksTooMuch]
    refine and_congr_right fun _ => ?_
    cases digitsAsked environment with
    | none => simp
    | some n => simp
  · rw [Program.exists_eval_iff, hasks]
  · rw [Program.exists_batch_iff, hasks]

/-- Asked for one digit more than 31 bits can count, the settings accept the number,
and neither a one nor the text of it is shown: not every environment leaves every
result showable. -/
theorem not_shows_of_tooBig :
    let environment := Environment.ofList [(precisionName, "2147483648")]
    (load environment).precision = 2147483648
      ∧ formatValue (load environment).precision 1 = .error .tooBig
      ∧ (¬ ∃ finish, Program.eval (load environment) "1" false none = .ok finish)
      ∧ ¬ ∀ environment x, ∃ text, formatValue (load environment).precision x = .ok text := by
  intro environment
  have hprecision : (load environment).precision = 2147483648 := by decide +kernel
  have hone : formatValue (load environment).precision 1 = .error .tooBig := by decide +kernel
  refine ⟨hprecision, hone, fun h => ?_, fun h => ?_⟩
  · refine Program.exists_eval_iff.mp h ⟨Nat.le_of_eq hprecision.symm, ?_⟩
    decide +kernel
  · obtain ⟨text, htext⟩ := h environment 1
    exact nomatch hone.symm.trans htext

end Settings

end Reckon
