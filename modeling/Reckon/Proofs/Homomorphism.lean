import Reckon.Outcome
import Reckon.Proofs.Contraction
import Reckon.Proofs.Happenings

/-!
# Evaluation commutes with maps of numbers

No decision of an evaluation depends on a number. What a pass takes is
decided by the text and by the kind of the scope, and what a reduction
contracts by the operators. So a map of numbers that keeps the operations
(`ArithmeticHom`) can be applied before an evaluation or after it: it carries
the tree of one arithmetic to the tree of the other (`ArithmeticHom.map_evaluate`),
and what happens on the way is the same (`ArithmeticHom.map_happenings`).
-/

namespace Reckon

/-- **A map of numbers that keeps the operations.** -/
structure ArithmeticHom (α β : Type) [Arithmetic α] [Arithmetic β] where
  toFun : α → β
  map_zero : toFun Arithmetic.zero = Arithmetic.zero
  map_one : toFun Arithmetic.one = Arithmetic.one
  map_minusOne : toFun Arithmetic.minusOne = Arithmetic.minusOne
  map_undefined : toFun Arithmetic.undefined = Arithmetic.undefined
  map_apply : ∀ (o : Operator) (v b : α), toFun (o.apply v b) = o.apply (toFun v) (toFun b)
  map_ofDecimal : ∀ d : Decimal, toFun (Arithmetic.ofDecimal d) = Arithmetic.ofDecimal d

variable {α β : Type}

/-! ## What a map does to terms, scopes and trees -/

/-- The term with its value mapped. -/
def Term.map (h : α → β) (t : Term α) : Term β where
  operator := t.operator
  value := t.value.map h
  node := t.node

/-- The run with its terms mapped. -/
def Run.map (h : α → β) (r : Run α) : Run β where
  head := r.head.map h
  folded := r.folded.map (Term.map h)

/-- The scope with its terms mapped. -/
def Scope.map (h : α → β) (s : Scope α) : Scope β where
  closesGroup := s.closesGroup
  closed := s.closed
  terms := s.terms.map (Term.map h)
  grown := s.grown
  pending := s.pending

namespace Tree

mutual

/-- **The tree with its numbers mapped.** -/
def map (h : α → β) : Tree α → Tree β
  | node s v groups => node (s.map h) (v.map h) (mapAll h groups)

/-- The trees with their numbers mapped. -/
def mapAll (h : α → β) : List (Tree α) → List (Tree β)
  | [] => []
  | t :: ts => t.map h :: mapAll h ts

end

theorem mapAll_append (h : α → β) (ts us : List (Tree α)) :
    mapAll h (ts ++ us) = mapAll h ts ++ mapAll h us := by
  induction ts with
  | nil => rfl
  | cons t ts ih => exact congrArg (List.cons _) ih

@[simp] theorem value_map (h : α → β) (t : Tree α) : (t.map h).value = t.value.map h := by
  cases t
  rfl

end Tree

/-- The frame with its numbers mapped. -/
def Frame.map (h : α → β) (f : Frame α) : Frame β where
  scope := f.scope.map h
  groups := Tree.mapAll h f.groups

/-- The happening with its numbers mapped. -/
def Happening.map (h : α → β) : Happening α → Happening β
  | .read l => .read l
  | .ended ts => .ended (ts.map (Term.map h))

/-- The next operator to contract does not depend on the numbers. -/
theorem tightest_map (h : α → β) (ts : List (Term α)) :
    tightest (ts.map (Term.map h)) = tightest ts := by
  have hofTier (tier : Nat) :
      tightest.ofTier (ts.map (Term.map h)) tier = tightest.ofTier ts tier := by
    unfold tightest.ofTier
    rw [List.findSome?_map]
    rfl
  rw [tightest, tightest, hofTier, hofTier]

namespace ArithmeticHom

variable [Arithmetic α] [Arithmetic β] (h : ArithmeticHom α β)

/-! ## Terms -/

theorem map_getD (v : Option α) :
    h.toFun (v.getD Arithmetic.undefined) = (v.map h.toFun).getD Arithmetic.undefined := by
  cases v with
  | none => exact h.map_undefined
  | some v => rfl

theorem map_number (t : Term α) : h.toFun t.number = (t.map h.toFun).number :=
  h.map_getD t.value

theorem map_term_apply (t : Term α) (running : α) :
    h.toFun (t.apply running) = (t.map h.toFun).apply (h.toFun running) := by
  obtain ⟨_ | o, _ | v, g⟩ := t
  · exact h.map_undefined
  · exact h.map_undefined
  · exact h.map_undefined
  · exact h.map_apply o running v

theorem map_mul (v b : α) :
    h.toFun (Arithmetic.mul v b) = Arithmetic.mul (h.toFun v) (h.toFun b) :=
  h.map_apply .mul v b

theorem map_lead (t : Term α) : t.lead.map h.toFun = (t.map h.toFun).lead := by
  obtain ⟨_ | o, v, g⟩ := t
  · rfl
  · cases o with
    | sub =>
      show (⟨some .add, some (h.toFun (Arithmetic.mul Arithmetic.minusOne _)), g⟩ : Term β) = _
      rw [h.map_mul, h.map_minusOne, h.map_number]
      rfl
    | _ => rfl

/-- A literal has the same value in every arithmetic. -/
theorem map_value (l : Literal) : h.toFun (l.value : α) = l.value := by
  unfold Literal.value
  cases l.decimal? with
  | none => exact h.map_undefined
  | some d =>
    show h.toFun (Arithmetic.mul _ (Arithmetic.ofDecimal d)) = _
    rw [h.map_mul, h.map_ofDecimal]
    cases l.negative with
    | false => exact congrArg (Arithmetic.mul · _) h.map_one
    | true => exact congrArg (Arithmetic.mul · _) h.map_minusOne

/-! ## Reductions -/

theorem map_absorb (left r : Run α) :
    (left.absorb r).map h.toFun = (left.map h.toFun).absorb (r.map h.toFun) := by
  have hvalue : h.toFun (r.head.apply left.head.number)
      = (r.map h.toFun).head.apply (left.map h.toFun).head.number := by
    rw [h.map_term_apply, h.map_number]
    rfl
  unfold Run.absorb
  rw [← hvalue]
  show Run.mk _ ((left.folded ++ r.terms).map (Term.map h.toFun)) = Run.mk _ (_ ++ _)
  rw [List.map_append]
  rfl

theorem map_contractAfter (o : Option Operator) (left : Run α) (rs : List (Run α)) :
    contractAfter o (left.map h.toFun) (rs.map (Run.map h.toFun))
      = ((contractAfter o left rs).1.map h.toFun,
          (contractAfter o left rs).2.map (Run.map h.toFun)) := by
  induction rs generalizing left with
  | nil => rfl
  | cons r rs ih =>
    rw [List.map_cons, contractAfter, contractAfter]
    by_cases ho : r.head.operator = o
    · rw [if_pos ho, if_pos (show (r.map h.toFun).head.operator = o from ho), ← h.map_absorb, ih]
    · rw [if_neg ho, if_neg (show (r.map h.toFun).head.operator ≠ o from ho), ih]
      rfl

theorem map_contracted (first : Run α) (others : List (Run α)) :
    contracted (first.map h.toFun) (others.map (Run.map h.toFun))
      = ((contracted first others).1.map h.toFun,
          (contracted first others).2.map (Run.map h.toFun)) := by
  have hheads (rs : List (Run α)) :
      tightest ((rs.map (Run.map h.toFun)).map Run.head) = tightest (rs.map Run.head) := by
    rw [List.map_map, ← tightest_map h.toFun, List.map_map]
    rfl
  induction first, others using contracted_induction with
  | done first others hnone =>
    rw [contracted_of_none ((hheads others).trans hnone), contracted_of_none hnone]
  | contract first others o hsome ih =>
    rw [contracted_of_some ((hheads others).trans hsome), contracted_of_some hsome,
      h.map_contractAfter, ih]

theorem map_fold (ts : List (Term α)) :
    h.toFun (fold ts) = fold (ts.map (Term.map h.toFun)) := by
  have hfoldl (v : α) :
      h.toFun (ts.foldl (fun running t => t.apply running) v)
        = (ts.map (Term.map h.toFun)).foldl (fun running t => t.apply running) (h.toFun v) := by
    induction ts generalizing v with
    | nil => rfl
    | cons t ts ih => exact (ih _).trans (by rw [h.map_term_apply]; rfl)
  unfold fold
  rw [hfoldl, h.map_zero]

/-- **Reducing commutes with the map.** -/
theorem map_reduce (ts : List (Term α)) :
    reduce (ts.map (Term.map h.toFun))
      = ⟨(reduce ts).value.map h.toFun, (reduce ts).terms.map (Term.map h.toFun)⟩ := by
  match ts with
  | [] => exact congrArg (fun v => (⟨some v, []⟩ : Reduction β)) h.map_undefined.symm
  | [t] =>
    show Reduction.mk (t.map h.toFun).lead.value [(t.map h.toFun).lead] = _
    rw [← h.map_lead]
    rfl
  | [t, u] =>
    show Reduction.mk (some ((u.map h.toFun).apply ((t.map h.toFun).lead.apply Arithmetic.zero)))
      [(t.map h.toFun).lead, u.map h.toFun] = _
    rw [← h.map_lead, ← h.map_zero, ← h.map_term_apply, ← h.map_term_apply]
    rfl
  | t :: u :: v :: ts =>
    have hlead : (t.map h.toFun).lead.precedence = t.lead.precedence := by
      rw [← h.map_lead]
      rfl
    by_cases hpositive : 0 < t.lead.precedence
    · rw [reduce_of_not_leading hpositive]
      refine (reduce_of_not_leading (hlead ▸ hpositive)).trans ?_
      rw [← h.map_lead, ← h.map_undefined]
      rfl
    · rw [reduce_of_leading hpositive]
      refine (reduce_of_leading (hlead ▸ hpositive)).trans ?_
      have hsingle : (u.map h.toFun :: v.map h.toFun :: ts.map (Term.map h.toFun)).map Run.single
          = ((u :: v :: ts).map Run.single).map (Run.map h.toFun) := by
        rw [List.map_map]
        show _ :: _ :: (ts.map (Term.map h.toFun)).map Run.single = _
        rw [List.map_map]
        rfl
      have hterms (rs : List (Run α)) :
          (rs.map (Run.map h.toFun)).flatMap Run.terms
            = (rs.flatMap Run.terms).map (Term.map h.toFun) := by
        rw [List.flatMap_map, List.map_flatMap]
        rfl
      have hheads (rs : List (Run α)) :
          (rs.map (Run.map h.toFun)).map Run.head = (rs.map Run.head).map (Term.map h.toFun) := by
        rw [List.map_map, List.map_map]
        rfl
      rw [← h.map_lead, hsingle]
      dsimp only
      rw [show Run.single (t.lead.map h.toFun) = (Run.single t.lead).map h.toFun from rfl,
        h.map_contracted]
      generalize contracted (Run.single t.lead) ((u :: v :: ts).map Run.single) = r
      show Reduction.mk (some (fold (((r.1 :: r.2).map (Run.map h.toFun)).map Run.head)))
        (((r.1 :: r.2).map (Run.map h.toFun)).flatMap Run.terms) = _
      rw [hterms, hheads, ← h.map_fold]
      rfl

/-! ## Evaluations -/

theorem map_push (l : Literal) (o : Operator) (f : Frame α) :
    (f.map h.toFun).push (l.term o) = (f.push (l.term o)).map h.toFun := by
  have hterm : (l.term o : Term α).map h.toFun = l.term o := by
    unfold Literal.term Term.map
    rw [Option.map_some, h.map_value]
  unfold Frame.push Frame.map Scope.push Scope.map
  rw [List.map_append, List.map_singleton, hterm]

theorem map_attach (f : Frame α) (t : Tree α) :
    (f.map h.toFun).attach (t.map h.toFun) = (f.attach t).map h.toFun := by
  unfold Frame.attach Frame.map Scope.attach Scope.push Scope.map
  rw [Tree.mapAll_append, Tree.value_map, ← h.map_getD, List.map_append]
  rfl

theorem map_close (f : Frame α) : (f.map h.toFun).close = f.close.map h.toFun := by
  unfold Frame.close
  rw [show (f.map h.toFun).scope.terms = f.scope.terms.map (Term.map h.toFun) from rfl,
    h.map_reduce]
  rfl

/-- **Evaluating commutes with the map.** -/
theorem map_evaluate (f : Frame α) (c : Cursor) :
    (f.map h.toFun).evaluate c = ((f.evaluate c).1.map h.toFun, (f.evaluate c).2) := by
  -- A pass looks at no number, so each `hp` is a fact about both frames.
  induction f, c using Frame.evaluate_induction with
  | ended f c hp =>
    rw [Frame.evaluate_of_ended hp,
      Frame.evaluate_of_ended (f := f.map h.toFun) hp, h.map_close]
  | stalled f c hp =>
    rw [Frame.evaluate_of_stalled hp,
      Frame.evaluate_of_stalled (f := f.map h.toFun) hp, h.map_close]
  | closed f c d hp =>
    rw [Frame.evaluate_of_closed hp, Frame.evaluate_of_closed (f := f.map h.toFun) hp,
      ← h.map_close]
    rfl
  | opened f c o d hp ihGroup ih =>
    have hgroup : (Frame.evaluateGroup d : Tree β × Cursor)
        = ((Frame.evaluateGroup (α := α) d).1.map h.toFun,
            (Frame.evaluateGroup (α := α) d).2) := ihGroup
    rw [Frame.evaluate_of_opened hp, Frame.evaluate_of_opened (f := f.map h.toFun) hp, hgroup,
      ← ih, ← h.map_attach]
    rfl
  | literal f c o l d hp ih =>
    rw [Frame.evaluate_of_literal hp, Frame.evaluate_of_literal (f := f.map h.toFun) hp,
      h.map_push, ih]
  | blank f c d hp ih =>
    rw [Frame.evaluate_of_blank hp, Frame.evaluate_of_blank (f := f.map h.toFun) hp, ← ih]
    rfl

/-- **A text is read alike** in both arithmetics. -/
theorem map_evaluateChars (text : List Char) :
    (evaluateChars text : Tree β × Cursor)
      = ((evaluateChars text : Tree α × Cursor).1.map h.toFun,
          (evaluateChars text : Tree α × Cursor).2) := by
  unfold evaluateChars
  rw [Scope.evaluate_eq, Scope.evaluate_eq]
  exact h.map_evaluate { scope := .outermost } _

/-- **The same things happen** in both arithmetics. -/
theorem map_happenings (f : Frame α) (c : Cursor) :
    (f.map h.toFun).happenings c = (f.happenings c).map (Happening.map h.toFun) := by
  induction f, c using Frame.evaluate_induction with
  | ended f c hp =>
    rw [Frame.happenings_of_ended hp, Frame.happenings_of_ended (f := f.map h.toFun) hp]
    rfl
  | stalled f c hp =>
    rw [Frame.happenings_of_stalled hp, Frame.happenings_of_stalled (f := f.map h.toFun) hp]
    rfl
  | closed f c d hp =>
    rw [Frame.happenings_of_closed hp, Frame.happenings_of_closed (f := f.map h.toFun) hp]
    rfl
  | opened f c o d hp ihGroup ih =>
    have hgroup : (Frame.evaluateGroup d : Tree β × Cursor)
        = ((Frame.evaluateGroup (α := α) d).1.map h.toFun,
            (Frame.evaluateGroup (α := α) d).2) := h.map_evaluate { scope := .group } d
    rw [Frame.happenings_of_opened hp, Frame.happenings_of_opened (f := f.map h.toFun) hp, hgroup,
      List.map_append, ← ih, ← ihGroup, ← h.map_attach]
    rfl
  | literal f c o l d hp ih =>
    rw [Frame.happenings_of_literal hp, Frame.happenings_of_literal (f := f.map h.toFun) hp,
      h.map_push, ih]
    rfl
  | blank f c d hp ih =>
    rw [Frame.happenings_of_blank hp, Frame.happenings_of_blank (f := f.map h.toFun) hp, ← ih]
    rfl

end ArithmeticHom

end Reckon
