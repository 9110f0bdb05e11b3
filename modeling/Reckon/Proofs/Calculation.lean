import Reckon.Proofs.Homomorphism
import Reckon.Proofs.Spreading
import Reckon.Proofs.Strict

/-!
# What becomes of an undefined value

Whatever is wrong with a literal or a group ends in an undefined value, and
an undefined operand makes most results undefined. Most, because a power can
lose it, and then a text with a malformed literal has a value like any other:
`()^0` is one.

So what an evaluation asks of its arithmetic has to be looked at, and not
only its value. `Calculation` is the arithmetic that keeps it: it carries
nothing out, and every other arithmetic is a map of it
(`Calculation.hom`). The `calculation` of a text says which operations
lead to its value. A fault on the way leaves an undefined operand in it
(`holdsUndefined_calculation`), and `Calculation.IsUndefined` says what has
to hold along the operations above such an operand for it to reach the value.
-/

namespace Reckon

/-- **A calculation**: what an arithmetic is asked for, and not carried
out. -/
inductive Calculation where
  | zero
  | one
  | minusOne
  | undefined
  | decimal (d : Decimal)
  | apply (o : Operator) (v b : Calculation)
deriving Repr, DecidableEq

instance : Arithmetic Calculation where
  zero := .zero
  one := .one
  minusOne := .minusOne
  undefined := .undefined
  add := .apply .add
  sub := .apply .sub
  mul := .apply .mul
  div := .apply .div
  rem := .apply .mod
  pow := .apply .pow
  ofDecimal := .decimal

/-- **The calculation of a text.** -/
def calculation (text : String) : Calculation :=
  (evaluateChars text.toList).1.number

namespace Calculation

theorem apply_eq (o : Operator) (v b : Calculation) : o.apply v b = .apply o v b := by
  cases o <;> rfl

section Result

variable {α : Type} [Arithmetic α]

/-- **Carries a calculation out.** -/
def result : Calculation → α
  | .zero => Arithmetic.zero
  | .one => Arithmetic.one
  | .minusOne => Arithmetic.minusOne
  | .undefined => Arithmetic.undefined
  | .decimal d => Arithmetic.ofDecimal d
  | .apply o v b => o.apply v.result b.result

/-- Carrying calculations out keeps the operations. -/
def hom : ArithmeticHom Calculation α where
  toFun := result
  map_zero := rfl
  map_one := rfl
  map_minusOne := rfl
  map_undefined := rfl
  map_apply o v b := by rw [apply_eq]; rfl
  map_ofDecimal _ := rfl

end Result

/-! ## Undefined operands -/

/-- Is the undefined value an operand anywhere in the calculation? -/
def holdsUndefined : Calculation → Bool
  | .undefined => true
  | .apply _ v b => v.holdsUndefined || b.holdsUndefined
  | _ => false

/-- Does a power in the calculation lose an undefined operand? -/
def isWashed : Calculation → Bool
  | .apply o v b => o.washes v.result b.result || v.isWashed || b.isWashed
  | _ => false

/-- **A calculation without a value.** The undefined value is one; an
operation on one is one, unless it loses it; and an operation on two numbers
is one if it has no result, like the quotient of two zeros. -/
inductive IsUndefined : Calculation → Prop where
  | undefined : IsUndefined .undefined
  | left {o : Operator} {v b : Calculation} : IsUndefined v
      → o.washes v.result b.result = false → IsUndefined (.apply o v b)
  | right {o : Operator} {v b : Calculation} : IsUndefined b
      → o.washes v.result b.result = false → IsUndefined (.apply o v b)
  | born {o : Operator} {v b : Calculation} : (v.result : Float).isNaN = false
      → (b.result : Float).isNaN = false → (o.apply v.result b.result : Float).isNaN = true
      → IsUndefined (.apply o v b)

/-- **A calculation has no value exactly if its result is undefined.** -/
theorem isNaN_result_iff (k : Calculation) :
    (k.result : Float).isNaN = true ↔ k.IsUndefined := by
  constructor
  · intro h
    induction k with
    | zero => exact absurd h (Binary64.isNaN_zero ▸ Bool.false_ne_true)
    | one => exact absurd h (Binary64.isNaN_one ▸ Bool.false_ne_true)
    | minusOne => exact absurd h (Binary64.isNaN_minusOne ▸ Bool.false_ne_true)
    | undefined => exact .undefined
    | decimal d => exact absurd h (Binary64.isNaN_ofDecimal false d ▸ Bool.false_ne_true)
    | apply o v b ihv ihb =>
      have hresult : (o.apply v.result b.result : Float).isNaN = true := h
      cases hv : (v.result : Float).isNaN with
      | true =>
        rw [o.isNaN_apply (.inl hv), Bool.not_eq_true'] at hresult
        exact .left (ihv hv) hresult
      | false =>
        cases hb : (b.result : Float).isNaN with
        | true =>
          rw [o.isNaN_apply (.inr hb), Bool.not_eq_true'] at hresult
          exact .right (ihb hb) hresult
        | false => exact .born hv hb hresult
  · intro h
    induction h with
    | undefined => exact Binary64.isNaN_undefined
    | left _ hwashes ih => exact (Operator.isNaN_apply _ (.inl ih)).trans (hwashes ▸ rfl)
    | right _ hwashes ih => exact (Operator.isNaN_apply _ (.inr ih)).trans (hwashes ▸ rfl)
    | born _ _ hresult => exact hresult

/-- **An undefined operand that no power loses** reaches the value. -/
theorem isUndefined_of_holdsUndefined {k : Calculation} (h : k.holdsUndefined = true)
    (hwashed : k.isWashed = false) : k.IsUndefined := by
  induction k with
  | zero | one | minusOne | decimal _ => exact absurd h Bool.false_ne_true
  | undefined => exact .undefined
  | apply o v b ihv ihb =>
    rw [isWashed, Bool.or_eq_false_iff, Bool.or_eq_false_iff] at hwashed
    obtain ⟨⟨hwashes, hv⟩, hb⟩ := hwashed
    rw [holdsUndefined, Bool.or_eq_true] at h
    rcases h with h | h
    · exact .left (ihv h hv) hwashes
    · exact .right (ihb h hb) hwashes

end Calculation

/-- **The value of a text** is the result of its calculation. -/
theorem evaluate_eq_result (text : String) : evaluate text = (calculation text).result := by
  unfold evaluate calculation Tree.number
  rw [(Calculation.hom (α := Float)).map_evaluateChars, Tree.value_map]
  exact (Calculation.hom.map_getD _).symm

/-! ## A fault leaves an undefined operand -/

/-- Is the value of the term an undefined one or made from one? -/
def Term.isTainted (t : Term Calculation) : Bool :=
  t.number.holdsUndefined

/-- Every operator keeps an undefined operand. -/
theorem Calculation.spreads_holdsUndefined (o : Operator) :
    Spreads (holdsUndefined · = true) o := by
  intro v b h
  rw [apply_eq, holdsUndefined, Bool.or_eq_true]
  exact h

theorem Term.holdsUndefined_apply {t : Term Calculation} {running : Calculation}
    (h : t.isTainted = true ∨ running.holdsUndefined = true) :
    (t.apply running).holdsUndefined = true :=
  apply_of_spreads (P := (Calculation.holdsUndefined · = true)) rfl
    (fun o _ => Calculation.spreads_holdsUndefined o) h

theorem Term.isTainted_lead {t : Term Calculation} (h : t.isTainted = true) :
    t.lead.isTainted = true := by
  obtain ⟨_ | o, v, g⟩ := t
  · exact h
  · cases o with
    | sub =>
      show (Calculation.minusOne.holdsUndefined || _) = true
      exact h
    | _ => exact h

/-- **A reduction keeps an undefined operand**, and of no terms it makes
one. -/
theorem holdsUndefined_reduce {ts : List (Term Calculation)}
    (h : ts = [] ∨ ∃ t ∈ ts, t.isTainted = true) :
    ((reduce ts).value.getD Arithmetic.undefined).holdsUndefined = true := by
  match ts with
  | [] => rfl
  | [t] =>
    obtain ⟨u, hu, htainted⟩ := h.resolve_left (by simp)
    rw [List.mem_singleton.mp hu] at htainted
    exact Term.isTainted_lead htainted
  | [t, u] =>
    obtain ⟨w, hw, htainted⟩ := h.resolve_left (by simp)
    refine Term.holdsUndefined_apply ?_
    rcases List.mem_cons.mp hw with rfl | hw
    · exact .inr (Term.holdsUndefined_apply (.inl (Term.isTainted_lead htainted)))
    · rw [List.mem_singleton.mp hw] at htainted
      exact .inl htainted
  | t :: u :: v :: ts =>
    by_cases hlead : 0 < t.lead.precedence
    · -- The terms are dropped here, and the undefined value is what is left.
      rw [reduce_of_not_leading hlead]
      rfl
    · rw [reduce_of_leading hlead]
      obtain ⟨w, hw, htainted⟩ := h.resolve_left (by simp)
      have hruns : ∃ r ∈ Run.single t.lead :: (u :: v :: ts).map Run.single,
          r.head.isTainted = true := by
        rcases List.mem_cons.mp hw with rfl | hw
        · exact ⟨_, List.mem_cons_self, Term.isTainted_lead htainted⟩
        · exact ⟨.single w, List.mem_cons_of_mem _ (List.mem_map_of_mem hw), htainted⟩
      exact fold_contracted_of_spreads (P := (Calculation.holdsUndefined · = true)) rfl
        (fun o _ => Calculation.spreads_holdsUndefined o) hruns

/-- Is something wrong: is the literal without a value, or the scope without
terms? -/
def Happening.isFault {α : Type} : Happening α → Bool
  | .read l => l.decimal?.isNone
  | .ended ts => ts.isEmpty

theorem Happening.isFault_map {α β : Type} (h : α → β) (e : Happening α) :
    (e.map h).isFault = e.isFault := by
  cases e with
  | read l => rfl
  | ended ts => exact List.isEmpty_map

namespace Frame

/-- A scope that ends is undefined if it holds an undefined operand or
nothing. -/
theorem holdsUndefined_close {f : Frame Calculation}
    (h : (∃ t ∈ f.scope.terms, t.isTainted = true)
      ∨ ∃ e ∈ [Happening.ended f.scope.terms], e.isFault = true) :
    f.close.number.holdsUndefined = true := by
  refine holdsUndefined_reduce ?_
  rcases h with h | ⟨e, he, hfault⟩
  · exact .inr h
  · rw [List.mem_singleton.mp he] at hfault
    exact .inl (List.isEmpty_iff.mp hfault)

/-- **A fault anywhere leaves an undefined operand.** The scope that it
happens in holds one from then on, and the value of the scope goes into the
one around it. -/
theorem holdsUndefined_evaluate (f : Frame Calculation) (c : Cursor)
    (h : (∃ t ∈ f.scope.terms, t.isTainted = true)
      ∨ ∃ e ∈ f.happenings c, e.isFault = true) :
    (f.evaluate c).1.number.holdsUndefined = true := by
  induction f, c using evaluate_induction with
  | ended f c hp =>
    rw [happenings_of_ended hp] at h
    rw [evaluate_of_ended hp]
    exact holdsUndefined_close h
  | stalled f c hp =>
    rw [happenings_of_stalled hp] at h
    rw [evaluate_of_stalled hp]
    exact holdsUndefined_close h
  | closed f c d hp =>
    rw [happenings_of_closed hp] at h
    rw [evaluate_of_closed hp]
    exact holdsUndefined_close (f := f.shut) h
  | opened f c o d hp ihGroup ih =>
    rw [happenings_of_opened hp] at h
    rw [evaluate_of_opened hp]
    refine ih ?_
    rcases h with ⟨t, ht, htainted⟩ | ⟨e, he, hfault⟩
    · exact .inl ⟨t, List.mem_append_left _ ht, htainted⟩
    · rcases List.mem_append.mp he with he | he
      · have hgroup := ihGroup (.inr ⟨e, he, hfault⟩)
        exact .inl ⟨_, List.mem_append_right _ (List.mem_singleton_self _), hgroup⟩
      · exact .inr ⟨e, he, hfault⟩
  | literal f c o l d hp ih =>
    rw [happenings_of_literal hp] at h
    rw [evaluate_of_literal hp]
    refine ih ?_
    rcases h with ⟨t, ht, htainted⟩ | ⟨e, he, hfault⟩
    · exact .inl ⟨t, List.mem_append_left _ ht, htainted⟩
    · rcases List.mem_cons.mp he with rfl | he
      · have hliteral : (l.term o).isTainted = true := by
          show (l.value : Calculation).holdsUndefined = true
          rw [Literal.value, Option.isNone_iff_eq_none.mp hfault]
          rfl
        exact .inl ⟨_, List.mem_append_right _ (List.mem_singleton_self _), hliteral⟩
      · exact .inr ⟨e, he, hfault⟩
  | blank f c d hp ih =>
    rw [happenings_of_blank hp] at h
    rw [evaluate_of_blank hp]
    exact ih h

end Frame

/-- **A noted fault leaves an undefined operand** in the calculation. -/
theorem holdsUndefined_calculation {text : String}
    (h : (∃ run, .malformed run ∈ evaluationNotes text) ∨ .empty ∈ evaluationNotes text) :
    (calculation text).holdsUndefined = true := by
  have hhappening : ∃ e ∈ Frame.happenings (α := Float) { scope := .outermost }
      (Cursor.ofList (Text.strip text.toList)), e.isFault = true := by
    rcases h with ⟨run, h⟩ | h
    · obtain ⟨l, hl, hnone⟩ := Scope.exists_read_of_malformed h
      exact ⟨_, hl, Option.isNone_iff_eq_none.mpr hnone⟩
    · exact ⟨_, Scope.ended_nil_of_empty h, rfl⟩
  obtain ⟨e, he, hfault⟩ := hhappening
  have hhappenings := (Calculation.hom (α := Float)).map_happenings { scope := .outermost }
    (Cursor.ofList (Text.strip text.toList))
  have hmapped := hhappenings ▸ he
  obtain ⟨e', he', rfl⟩ := List.mem_map.mp hmapped
  rw [Happening.isFault_map] at hfault
  unfold calculation evaluateChars
  rw [Scope.evaluate_eq]
  exact Frame.holdsUndefined_evaluate _ _ (.inr ⟨e', he', hfault⟩)

/-- Is the note on a scope without terms? -/
def Note.isEmpty {α : Type} : Note α → Bool
  | .empty => true
  | _ => false

theorem empty_mem_of_any {α : Type} {notes : List (Note α)}
    (h : notes.any Note.isEmpty = true) : .empty ∈ notes := by
  obtain ⟨n, hn, hempty⟩ := List.any_eq_true.mp h
  cases n with
  | empty => exact hn
  | _ => exact absurd hempty Bool.false_ne_true

/-- **What a fault does to the value.** If a literal is malformed or a scope
ends without terms, the calculation has an undefined operand. The value is
undefined exactly if the calculation is, and it is, with the verdict to say
so, unless a power loses an undefined operand. -/
theorem isNaN_evaluate_of_fault (text : String)
    (h : (∃ run, .malformed run ∈ evaluationNotes text) ∨ .empty ∈ evaluationNotes text) :
    (calculation text).holdsUndefined = true
      ∧ ((evaluate text).isNaN = true ↔ (calculation text).IsUndefined)
      ∧ ((calculation text).isWashed = false →
          (evaluate text).isNaN = true ∧ (tryEvaluate false text).verdict = .undefined) := by
  have hholds := holdsUndefined_calculation h
  have hiff : (evaluate text).isNaN = true ↔ (calculation text).IsUndefined := by
    rw [evaluate_eq_result]
    exact (calculation text).isNaN_result_iff
  refine ⟨hholds, hiff, fun hwashed => ?_⟩
  have hnan := hiff.mpr (Calculation.isUndefined_of_holdsUndefined hholds hwashed)
  refine ⟨hnan, ?_⟩
  rw [tryEvaluate_false]
  show (if (evaluate text).isNaN then Verdict.undefined else .ok) = .undefined
  rw [hnan]
  rfl

/-- A factor that is an empty group makes the product undefined. -/
theorem isNaN_evaluate_empty_factor :
    .empty ∈ evaluationNotes "2*()" ∧ (evaluate "2*()").isNaN = true := by
  have hempty : .empty ∈ evaluationNotes "2*()" := empty_mem_of_any (by decide +kernel)
  exact ⟨hempty, ((isNaN_evaluate_of_fault "2*()" (.inr hempty)).2.2 (by decide +kernel)).1⟩

/-- **An empty group to the power zero is one**, and accepted as a value. -/
theorem evaluate_empty_group_pow_zero :
    .empty ∈ evaluationNotes "()^0"
      ∧ evaluate "()^0" = 1
      ∧ (evaluate "()^0").isNaN = false
      ∧ (tryEvaluate false "()^0").verdict = .ok := by
  refine ⟨empty_mem_of_any (by decide +kernel), ?_, ?_, ?_⟩
  · decide +kernel
  · decide +kernel
  · decide +kernel

end Reckon
