import Mathlib.Data.List.DropRight
import Reckon.Outcome
import Reckon.Proofs.Brackets
import Reckon.Proofs.Undefined

/-!
# What strict mode accepts

Strict mode never looks at brackets. It evaluates, and refuses the text if
the scan of the whole stopped before the end or if some group in the tree was
not closed. With what `Reckon.Proofs.Brackets` says of an evaluation both are
facts about the text, and together they say that it is no expression
(`isRefused_evaluateChars`). On the texts that are left, strict mode changes
nothing.

A text is stripped twice on its way, once for the outcome and once for the
evaluation, which is the same as once (`Text.strip_strip`).
-/

namespace Reckon

namespace Text

/-- **Taking characters off both ends** leaves none of them to take off. -/
theorem trim_trim (p : Char → Bool) (s : List Char) : trim p (trim p s) = trim p s := by
  have hdrop : (trim p s).dropWhile p = trim p s := by
    cases ht : trim p s with
    | nil => rfl
    | cons x t =>
      -- What is left begins as the text does behind its first characters.
      obtain ⟨u, hu⟩ := List.rdropWhile_prefix p (l := s.dropWhile p)
      rw [show (s.dropWhile p).rdropWhile p = x :: t from ht] at hu
      have hx := List.head?_dropWhile_not p s
      rw [← hu] at hx
      exact List.dropWhile_cons_of_neg (Bool.not_eq_true _ ▸ hx)
  rw [show trim p (trim p s) = ((trim p s).dropWhile p).rdropWhile p from rfl, hdrop]
  exact List.rdropWhile_idempotent p (s.dropWhile p)

theorem strip_strip (s : List Char) : strip (strip s) = strip s :=
  trim_trim isBlank s

end Text

section Refusal

variable {α : Type} [Arithmetic α]

theorem evaluateChars_strip (text : List Char) :
    (evaluateChars (Text.strip text) : Tree α × Cursor) = evaluateChars text := by
  unfold evaluateChars
  rw [Text.strip_strip]

/-- **The evaluation of a text reaches** what the brackets reach. -/
theorem reaches_evaluateChars (text : List Char) :
    Reaches (α := α) { scope := .outermost } (reach 0 (Text.strip text)) (evaluateChars text) := by
  unfold evaluateChars
  rw [Scope.evaluate_eq]
  exact Frame.reaches_evaluate { scope := .outermost } (Cursor.ofList (Text.strip text)) rfl
    (.inl rfl)

/-- **A text is refused exactly if it is no expression.** -/
theorem isRefused_evaluateChars (text : List Char) :
    isRefused (evaluateChars (α := α) text).1 (evaluateChars (α := α) text).2 = false
      ↔ IsExpression (Text.strip text) := by
  have h := reaches_evaluateChars (α := α) text
  have hrest : (evaluateChars (α := α) text).2.rest = (reach 0 (Text.strip text)).2 := h.rest
  have hgroups : (evaluateChars (α := α) text).1.isBalanced
      = ((reach 0 (Text.strip text)).1 == 0) := by
    rw [Tree.isBalanced_eq, h.closesGroup, h.groups]
    rfl
  rw [isExpression_iff_reach, isRefused, Cursor.hasMore, hrest, hgroups]
  generalize reach 0 (Text.strip text) = w
  obtain ⟨depth, rest⟩ := w
  simp only [Bool.or_eq_false_iff, Bool.not_eq_false', List.isEmpty_iff, beq_iff_eq, Prod.mk.injEq]
  exact And.comm

/-- A refusal is a matter of the brackets: neither the text nor the numbers count
beyond them. -/
theorem isRefused_evaluateChars_congr {β : Type} [Arithmetic β] {text text' : List Char}
    (h : IsExpression (Text.strip text) ↔ IsExpression (Text.strip text')) :
    isRefused (evaluateChars (α := α) text).1 (evaluateChars (α := α) text).2
      = isRefused (evaluateChars (α := β) text').1 (evaluateChars (α := β) text').2 := by
  rw [Bool.eq_iff_iff, ← Bool.not_eq_false, ← Bool.not_eq_false, isRefused_evaluateChars,
    isRefused_evaluateChars, h]

end Refusal

/-- The permissive outcome has the value of the text. -/
theorem tryEvaluate_false (text : String) :
    tryEvaluate false text
      = { expression := String.ofList (Text.strip text.toList), value := evaluate text } := by
  unfold tryEvaluate evaluate
  rw [← evaluateChars_strip]
  rfl

/-- The strict outcome is the permissive one, unless the text is refused. -/
theorem tryEvaluate_true (text : String) :
    tryEvaluate true text
      = if isRefused (evaluateChars (α := Float) text.toList).1
            (evaluateChars (α := Float) text.toList).2 then
          { expression := String.ofList (Text.strip text.toList)
            value := Binary64.undefined
            balanced := false }
        else tryEvaluate false text := by
  rw [tryEvaluate_false]
  unfold tryEvaluate evaluate
  rw [← evaluateChars_strip]
  rfl

/-- **The verdict on a text goes by its value and its brackets.** -/
theorem verdict_tryEvaluate_congr {text text' : String}
    (hvalue : evaluate text = evaluate text')
    (hbrackets : IsExpression (Text.strip text.toList) ↔ IsExpression (Text.strip text'.toList))
    (strict : Bool) : (tryEvaluate strict text).verdict = (tryEvaluate strict text').verdict := by
  have hpermissive : (tryEvaluate false text).verdict = (tryEvaluate false text').verdict := by
    rw [tryEvaluate_false, tryEvaluate_false, hvalue]
    rfl
  cases strict with
  | false => exact hpermissive
  | true =>
    have hrefused := isRefused_evaluateChars_congr (α := Float) (β := Float) hbrackets
    rw [tryEvaluate_true, tryEvaluate_true, hrefused]
    split
    · rfl
    · exact hpermissive

/-- **Strict mode accepts exactly the expressions.** A text that is no
expression is unbalanced and has no value; on an expression strict mode
changes nothing; and the permissive outcome has the value of the text, is
never unbalanced, and is undefined if the value is. -/
theorem tryEvaluate_strict (text : String) :
    (¬ IsExpression (Text.strip text.toList) →
        (tryEvaluate true text).verdict = .unbalanced
          ∧ (tryEvaluate true text).value.isNaN = true)
      ∧ (IsExpression (Text.strip text.toList) → tryEvaluate true text = tryEvaluate false text)
      ∧ (tryEvaluate false text).value = evaluate text
      ∧ (tryEvaluate false text).verdict
        = (if (evaluate text).isNaN then .undefined else .ok)
      ∧ (tryEvaluate false text).verdict ≠ .unbalanced := by
  have hverdict : (tryEvaluate false text).verdict
      = if (evaluate text).isNaN then .undefined else .ok := by
    rw [tryEvaluate_false]
    rfl
  refine ⟨fun h => ?_, fun h => ?_, ?_, hverdict, ?_⟩
  · rw [← isRefused_evaluateChars (α := Float), Bool.not_eq_false] at h
    rw [tryEvaluate_true, if_pos h]
    exact ⟨rfl, Binary64.isNaN_undefined⟩
  · rw [← isRefused_evaluateChars (α := Float)] at h
    rw [tryEvaluate_true, h]
    rfl
  · rw [tryEvaluate_false]
  · rw [hverdict]
    split
    · exact Verdict.noConfusion
    · exact Verdict.noConfusion

end Reckon
