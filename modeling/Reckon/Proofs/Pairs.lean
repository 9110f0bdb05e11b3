import Reckon.Proofs.Continuations
import Reckon.Proofs.Summands

/-!
# Reducing two terms

Two terms are not contracted. The second is applied to the first one added to
zero, and in a longer list it would be folded into the first before anything
is added. This module compares the two orders. They give the same number,
unless the sum from zero takes the sign of a negative zero that a pole would
have shown (`LosesSign`); then the one is an infinity and the other its
negative. So the condition is exact (`same_reduce_pair_iff`).

In a text the difference can be seen by adding zero: a third term makes
the list a long one, and adds nothing. For this the text has to be complete
and balanced, since behind an operator the plus would be the sign of its
operand, and in an open group the third term would be one of the group.
-/

namespace Reckon

open Binary64

/-! ## Both orders on two terms -/

/-- A plus, a minus and no operator all lead as a plus. -/
theorem Term.operator_lead_of_additive {α : Type} [Arithmetic α] {t : Term α}
    (ht : t.operator = none ∨ t.operator = some .add ∨ t.operator = some .sub) :
    t.lead.operator = some .add := by
  obtain ⟨o, v, g⟩ := t
  rcases ht with h | h | h
  all_goals
    obtain rfl := h
    rfl

/-- **A pole shows the sign of a zero.** -/
theorem power_zero_of_isOddPole (s : Bool) {b : Float} (h : isOddPole b = true) :
    power (zero s) b = infinity s := by
  have hb : (b == 0) = false := by
    refine Bool.eq_false_iff.mpr fun hzero => ?_
    rcases same_iff.mp (.inl hzero) with rfl | ⟨t, rfl, _⟩
    · exact absurd h (by decide +kernel)
    · cases t <;> exact absurd h (by decide +kernel)
  rw [power_zero s hb]
  rw [isOddPole, Bool.and_eq_true] at h
  rw [if_neg fun hnan => by simp [hnan, isOdd] at h, powerOfZero, h.1, h.2, Bool.and_true]
  rfl

/-- **Two terms reduce to what contracting them gives**, exactly if they do not
lose the sign of a zero. -/
theorem same_reduce_pair_iff {t u : Term Float} (ht : t.lead.operator = some .add) :
    Same (reduce [t, u]).number (contractedSum t [u]) ↔ ¬ LosesSign [t, u] := by
  rw [contractedSum_eq_groupedSum ht]
  refine ⟨fun h hloses => ?_, same_reduce ht⟩
  obtain ⟨hzero, hpow, hpole⟩ := hloses
  have happly (v : Float) : u.apply v = power v u.number := by
    obtain ⟨o, _ | b, g⟩ := u
    · exact absurd (show isOddPole undefined = true from hpole) (by decide +kernel)
    · obtain rfl : o = some .pow := hpow
      rfl
  have hfirst : (reduce [t, u]).number = infinity false := by
    show u.apply (t.lead.apply (zero false)) = _
    rw [Term.apply_of_add ht, hzero, happly,
      show zero false + zero true = zero false by decide +kernel, power_zero_of_isOddPole _ hpole]
  have hsecond : groupedSum (levels [t.lead, u]) [t.lead, u] = infinity true := by
    rw [groupedSum_pair ht (by rw [hpow]; rfl), hzero, happly, power_zero_of_isOddPole _ hpole]
    decide +kernel
  rw [hfirst, hsecond] at h
  exact absurd h (by decide +kernel)

/-- **Behind two terms a zero is added to what contracting them gives.** -/
theorem same_reduce_append_zero {t u z : Term Float} (ht : t.lead.operator = some .add)
    (hz : z.operator = some .add) (hzero : z.value = some (zero false)) :
    Same (reduce [t, u, z]).number (contractedSum t [u]) := by
  have hlevels : groupedSum (levels [t.lead, u, z]) [t.lead, u] = contractedSum t [u] := by
    rw [contractedSum_eq_groupedSum ht]
    exact groupedSum_of_keepsOrder (keepsOrder_append [t.lead, u] [z])
  have hadded : groupedSum (levels [t.lead, u, z]) [z] = zero false := by
    rw [groupedSum_cons (by rw [hz]; rfl)]
    show fold [Run.collapse _ (.single z)] = _
    rw [Run.collapse_single]
    show z.apply (zero false) = _
    rw [Term.apply_of_add hz, Term.number, hzero]
    decide +kernel
  rw [Reduction.number, value_reduce_of_leading_add ht]
  have hproduct : IsProduct [z] := ⟨hz, fun _ hu => absurd hu List.not_mem_nil⟩
  refine (same_groupedSum_append (levels [t.lead, u, z]) [t.lead, u] hproduct).trans ?_
  rw [hlevels, hadded, add_zero_comm]
  exact same_zero_add _

/-! ## A zero behind a text -/

section Behind

variable {α : Type} [Arithmetic α]

/-- The term that `+0` is. -/
def zeroTerm : Term α :=
  Literal.term ⟨false, ['0']⟩ .add

/-- **Behind a balanced text that is complete a zero is a term more.** -/
theorem exists_terms_append_zero {t : List Char} (ht : IsExpression t) (hc : IsComplete t) :
    ∃ terms, (evaluateChars (α := α) t).1.scope.terms = (reduce terms).terms
      ∧ (evaluateChars (α := α) t).1.number = (reduce terms).number
      ∧ (evaluateChars (α := α) (t ++ ['+', '0'])).1.number
        = (reduce (terms ++ [zeroTerm])).number := by
  obtain ⟨w, hw, hsplit⟩ := exists_dropWhile_eq_strip_append ht.chars
  have hcomplete : IsComplete (Text.strip t) := by
    refine IsComplete.of_append (w := w) ?_ hw
    rw [← hsplit]
    exact hc.of_suffix (List.dropWhile_suffix _)
  obtain ⟨terms, hterms, hvalue, -, hread⟩ :=
    exists_terms_evaluateChars (α := α) ht.strip hcomplete
  refine ⟨terms, hterms, congrArg (Option.getD · _) hvalue, ?_⟩
  have hzero : Reads false terms ['+', '0'] (resultOf (terms ++ [zeroTerm (α := α)]))
      (leftBehind false []) := .literal rfl (.stop rfl)
  have hbehind := hzero.of_unspaced_eq (unspaced_append_of_nil hw _).symm
  refine Reads.number_eq (r := leftBehind false []) ?_
  have hstrip : Text.strip (t ++ ['+', '0']) = Text.strip t ++ (w ++ ['+', '0']) := by
    rw [Text.strip_append_cons (by decide), hsplit, List.append_assoc]
    rfl
  rw [hstrip]
  exact hread _ (not_isNumeric_head?_append hw (by rintro x ⟨⟩; rfl)) _ _ hbehind

end Behind

/-- **Two terms come to what the general path gives**, exactly if they do not
lose the sign of a zero: as a list, and, where a balanced and complete text has
just these two terms, beside the same text with a zero added. -/
theorem reduce_pair_agrees {t : Term Float}
    (ht : t.operator = none ∨ t.operator = some .add ∨ t.operator = some .sub) (u : Term Float) :
    (Same (reduce [t, u]).number (contractedSum t [u]) ↔ ¬ LosesSign [t, u])
      ∧ ∀ s : String, IsExpression s.toList → IsComplete s.toList →
        (evaluateChars (α := Float) s.toList).1.scope.terms = [t.lead, u] →
          (Same (evaluate s) (evaluate (s ++ "+0")) ↔ ¬ LosesSign [t, u]) := by
  have hlead := Term.operator_lead_of_additive ht
  refine ⟨same_reduce_pair_iff hlead, fun s hs hc htree => ?_⟩
  obtain ⟨terms, hterms, hnumber, hnumber'⟩ := exists_terms_append_zero (α := Float) hs hc
  rw [htree] at hterms
  obtain ⟨a, b, rfl⟩ := List.length_eq_two.mp
    ((length_terms_reduce terms).symm.trans (congrArg List.length hterms).symm)
  -- The text may have another first term, but it leads as the same.
  obtain ⟨ha, hsecond⟩ := List.cons.inj hterms
  obtain rfl : u = b := (List.cons.inj hsecond).1
  have hloses : LosesSign [t, u] ↔ LosesSign [a, u] := by
    rw [LosesSign, LosesSign, ha]
  have hzero : (zeroTerm (α := Float)).value = some (zero false) := by decide +kernel
  have hadded : Same (evaluate (s ++ "+0")) (contractedSum a [u]) := by
    rw [evaluate, show (s ++ "+0").toList = s.toList ++ ['+', '0'] by simp, hnumber']
    exact same_reduce_append_zero (ha ▸ hlead) rfl hzero
  rw [hloses, ← same_reduce_pair_iff (ha ▸ hlead), evaluate, hnumber]
  exact ⟨fun h => h.trans hadded, fun h => h.trans hadded.symm⟩

/-- Two to the power of minus one under a minus, as terms and as a text. -/
theorem reduce_pair_agrees_power :
    let t : Term Float := ⟨some .sub, some 2, none⟩
    let u : Term Float := ⟨some .pow, some (-1), none⟩
    ¬ LosesSign [t, u] ∧ Same (reduce [t, u]).number (contractedSum t [u])
      ∧ IsExpression "-2^-1".toList ∧ IsComplete "-2^-1".toList
      ∧ (evaluateChars (α := Float) "-2^-1".toList).1.scope.terms = [t.lead, u]
      ∧ Same (evaluate "-2^-1") (evaluate ("-2^-1" ++ "+0")) := by
  intro t u
  have hsign : ¬ LosesSign [t, u] := by decide +kernel
  have ht : IsExpression "-2^-1".toList := isExpression_iff_reach.mpr rfl
  have hc : IsComplete "-2^-1".toList := IsComplete.of_getLast? (by rintro x ⟨⟩; rfl)
  have hterms : (evaluateChars (α := Float) "-2^-1".toList).1.scope.terms = [t.lead, u] := by
    decide +kernel
  obtain ⟨hlist, htext⟩ := reduce_pair_agrees (t := t) (.inr (.inr rfl)) u
  exact ⟨hsign, hlist.mpr hsign, ht, hc, hterms, (htext "-2^-1" ht hc hterms).mpr hsign⟩

/-- **The two orders differ** on a negative zero and an odd pole. -/
theorem not_same_reduce_pair :
    (¬ ∀ t u : Term Float, t.operator = none ∨ t.operator = some .add ∨ t.operator = some .sub →
        Same (reduce [t, u]).number (contractedSum t [u]))
      ∧ evaluate "-0^-1" = infinity false ∧ evaluate ("-0^-1" ++ "+0") = infinity true := by
  refine ⟨fun h => ?_, by decide +kernel, by decide +kernel⟩
  have hpair := h ⟨some .sub, some 0, none⟩ ⟨some .pow, some (-1), none⟩ (.inr (.inr rfl))
  exact (same_reduce_pair_iff rfl).mp hpair (by decide +kernel)

end Reckon
