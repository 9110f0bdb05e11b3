import Reckon.Reduction.Basic

/-!
# Contracting, operator by operator

A reduction contracts the tightest operator that is left until none is. Here
that is an equation for either case and the induction that goes with them
(`contracted_induction`): what one contraction keeps, the whole of them
keeps.
-/

namespace Reckon

variable {α ν : Type} [Arithmetic α] {first : Run α ν} {others : List (Run α ν)} {o : Operator}

theorem contractions_of_none (h : tightest (others.map Run.head) = none) :
    contractions first others = [] := by
  rw [contractions]
  split
  · rfl
  · rename_i h'
    exact absurd (h.symm.trans h') (by simp)

theorem contractions_of_some (h : tightest (others.map Run.head) = some o) :
    contractions first others
      = ⟨o, (contractAfter o first others).1, (contractAfter o first others).2⟩
        :: contractions (contractAfter o first others).1 (contractAfter o first others).2 := by
  rw [contractions]
  split
  · rename_i h'
    exact absurd (h.symm.trans h') (by simp)
  · rename_i h'
    obtain rfl := Option.some.inj (h.symm.trans h')
    rfl

/-- With no operator to contract the runs stand as they are. -/
theorem contracted_of_none (h : tightest (others.map Run.head) = none) :
    contracted first others = (first, others) := by
  rw [contracted, contractions_of_none h]
  rfl

/-- **The tightest operator is contracted first**, and then the others. -/
theorem contracted_of_some (h : tightest (others.map Run.head) = some o) :
    contracted first others
      = contracted (contractAfter o first others).1 (contractAfter o first others).2 := by
  rw [contracted, contracted, contractions_of_some h, List.getLast?_cons]
  cases (contractions (contractAfter o first others).1
    (contractAfter o first others).2).getLast? with
  | none => rfl
  | some k => rfl

/-- **Induction over the contractions of a reduction.** Each one leaves fewer
runs than it found. -/
@[elab_as_elim]
theorem contracted_induction {motive : Run α ν → List (Run α ν) → Prop}
    (done : ∀ first others, tightest (others.map Run.head) = none → motive first others)
    (contract : ∀ first others o, tightest (others.map Run.head) = some o
      → motive (contractAfter o first others).1 (contractAfter o first others).2
      → motive first others)
    (first : Run α ν) (others : List (Run α ν)) : motive first others := by
  generalize hn : others.length = n
  induction n using Nat.strongRecOn generalizing first others with
  | ind n ih =>
    subst hn
    cases h : tightest (others.map Run.head) with
    | none => exact done first others h
    | some o =>
      obtain ⟨t, ht, hto⟩ := exists_mem_of_tightest h
      obtain ⟨r, hr, rfl⟩ := List.mem_map.mp ht
      exact contract first others o h
        (ih _ (length_contractAfter_lt first ⟨r, hr, hto⟩) _ _ rfl)

/-! ## The terms stay -/

/-- A contraction moves terms from run to run and loses none. -/
theorem length_terms_contractAfter (o : Option Operator) (left : Run α ν) (rs : List (Run α ν)) :
    (((contractAfter o left rs).1 :: (contractAfter o left rs).2).flatMap Run.terms).length
      = ((left :: rs).flatMap Run.terms).length := by
  induction rs generalizing left with
  | nil => rfl
  | cons r rs ih =>
    rw [contractAfter]
    split
    · rw [ih]
      simp only [List.flatMap_cons, List.length_append, Run.terms, Run.absorb, List.length_cons]
      omega
    · show ((left :: _ :: _).flatMap Run.terms).length = _
      rw [List.flatMap_cons, List.length_append, ih r, ← List.length_append, ← List.flatMap_cons]

theorem length_terms_contracted (first : Run α ν) (others : List (Run α ν)) :
    (((contracted first others).1 :: (contracted first others).2).flatMap Run.terms).length
      = ((first :: others).flatMap Run.terms).length := by
  induction first, others using contracted_induction with
  | done first others h => rw [contracted_of_none h]
  | contract first others o h ih =>
    rw [contracted_of_some h, ih, length_terms_contractAfter]

/-! ## Three terms and more -/

/-- Behind a first term that is no addition nothing is contracted. -/
theorem reduce_of_not_leading {t u v : Term α ν} {ts : List (Term α ν)}
    (h : 0 < t.lead.precedence) :
    reduce (t :: u :: v :: ts) = ⟨some Arithmetic.undefined, t.lead :: u :: v :: ts⟩ :=
  if_pos h

/-- **Behind an addition everything is contracted** that can be, and the runs
that stand then are summed. -/
theorem reduce_of_leading {t u v : Term α ν} {ts : List (Term α ν)}
    (h : ¬ 0 < t.lead.precedence) :
    reduce (t :: u :: v :: ts)
      = let r := contracted (.single t.lead) ((u :: v :: ts).map .single)
        ⟨some (fold ((r.1 :: r.2).map Run.head)), (r.1 :: r.2).flatMap Run.terms⟩ :=
  if_neg h

/-- **A reduction leaves a scope as many terms** as it had. -/
theorem length_terms_reduce (ts : List (Term α ν)) : (reduce ts).terms.length = ts.length := by
  match ts with
  | [] => rfl
  | [t] => rfl
  | [t, u] => rfl
  | t :: u :: v :: ts =>
    by_cases h : 0 < t.lead.precedence
    · rw [reduce_of_not_leading h]
      rfl
    · rw [reduce_of_leading h]
      dsimp only
      rw [length_terms_contracted, List.flatMap_cons, List.flatMap_map]
      simp [Run.terms, Run.single]

end Reckon
