import Reckon.Proofs.Levels

/-!
# What spreads through a reduction

A reduction applies every operand of a list, one way or another. If a property
of operands passes through an operator from either side, then wherever in a list
an operand has it, the value has it in the end – whatever is grouped with what,
and provided that the operators of the list all pass it on
(`fold_contracted_of_spreads`).

Two properties are of this kind. That of being made from an undefined operand
passes through every operator. That of being undefined passes through every
operator but the power.
-/

namespace Reckon

variable {α : Type} [Arithmetic α] {P : α → Prop}

/-- **A property that an operator passes on** from either of its operands. -/
def Spreads (P : α → Prop) (o : Operator) : Prop :=
  ∀ v b, P v ∨ P b → P (o.apply v b)

section Steps

variable (hundefined : P Arithmetic.undefined)

include hundefined

/-- A step passes it on, from its operand or from what it is applied to. -/
theorem Term.apply_of_spreads {t : Term α} (ht : ∀ o, t.operator = some o → Spreads P o)
    {running : α} (h : P t.number ∨ P running) : P (t.apply running) := by
  obtain ⟨_ | o, _ | b, g⟩ := t
  · exact hundefined
  · exact hundefined
  · exact hundefined
  · exact ht o rfl running b h.symm

theorem foldl_of_spreads {ts : List (Term α)} (hts : ∀ o ∈ operators ts, Spreads P o) {v : α}
    (h : P v ∨ ∃ t ∈ ts, P t.number) : P (ts.foldl (fun running t => t.apply running) v) := by
  induction ts generalizing v with
  | nil => simpa using h
  | cons t ts ih =>
    have ht : ∀ o, t.operator = some o → Spreads P o := fun o ho =>
      hts o (mem_operators.mpr ⟨t, List.mem_cons_self, ho⟩)
    refine ih (fun o ho => hts o ?_) ?_
    · obtain ⟨u, hu, huo⟩ := mem_operators.mp ho
      exact mem_operators.mpr ⟨u, List.mem_cons_of_mem _ hu, huo⟩
    · rcases h with h | ⟨u, hu, h⟩
      · exact .inl (Term.apply_of_spreads hundefined ht (.inr h))
      · rcases List.mem_cons.mp hu with rfl | hu
        · exact .inl (Term.apply_of_spreads hundefined ht (.inl h))
        · exact .inr ⟨u, hu, h⟩

/-- A contraction keeps it, in the run or in the one that the run goes into. -/
theorem exists_contractAfter_of_spreads {o : Operator} (ho : Spreads P o) {left : Run α}
    {rs : List (Run α)} (h : ∃ r ∈ left :: rs, P r.head.number) :
    ∃ r ∈ (contractAfter (some o) left rs).1 :: (contractAfter (some o) left rs).2,
      P r.head.number := by
  induction rs generalizing left with
  | nil => exact h
  | cons r rs ih =>
    rw [contractAfter]
    by_cases hro : r.head.operator = some o
    · -- The run goes into the one on its left, and either may have it.
      have hr : ∀ q, r.head.operator = some q → Spreads P q := fun q hq =>
        Option.some.inj (hro.symm.trans hq) ▸ ho
      rw [if_pos hro]
      refine ih ?_
      obtain ⟨k, hk, h⟩ := h
      rcases List.mem_cons.mp hk with rfl | hk
      · exact ⟨_, List.mem_cons_self, Term.apply_of_spreads hundefined hr (.inr h)⟩
      · rcases List.mem_cons.mp hk with rfl | hk
        · exact ⟨_, List.mem_cons_self, Term.apply_of_spreads hundefined hr (.inl h)⟩
        · exact ⟨k, List.mem_cons_of_mem _ hk, h⟩
    · rw [if_neg hro]
      obtain ⟨k, hk, h⟩ := h
      rcases List.mem_cons.mp hk with rfl | hk
      · exact ⟨k, List.mem_cons_self, h⟩
      · obtain ⟨k, hk, h⟩ := ih ⟨k, hk, h⟩
        exact ⟨k, List.mem_cons_of_mem _ hk, h⟩

/-- **What one operand has, the value has**, if the operators of the list pass it
on. -/
theorem fold_contracted_of_spreads {first : Run α} {others : List (Run α)}
    (hall : ∀ o ∈ operators ((first :: others).map Run.head), Spreads P o)
    (h : ∃ r ∈ first :: others, P r.head.number) :
    P (fold (((contracted first others).1 :: (contracted first others).2).map Run.head)) := by
  induction first, others using contracted_induction with
  | done first others hnone =>
    obtain ⟨r, hr, h⟩ := h
    rw [contracted_of_none hnone]
    exact foldl_of_spreads hundefined hall (.inr ⟨r.head, List.mem_map_of_mem hr, h⟩)
  | contract first others o hsome ih =>
    have hheads := heads_contractAfter o first others
    obtain ⟨t, ht, hto⟩ := exists_mem_of_tightest hsome
    have ho : Spreads P o := hall o (mem_operators.mpr ⟨t, List.mem_cons_of_mem _ ht, hto⟩)
    rw [contracted_of_some hsome]
    refine ih (fun q hq => hall q ?_) (exists_contractAfter_of_spreads hundefined ho h)
    -- The contraction leaves no operator that was not there.
    rw [List.map_cons] at hq ⊢
    obtain ⟨u, hu, huq⟩ := mem_operators.mp hq
    rcases List.mem_cons.mp hu with rfl | hu
    · refine mem_operators.mpr ⟨first.head, List.mem_cons_self, ?_⟩
      rw [← huq, ← operator_head_fuse o first.head (others.map Run.head), hheads]
    · have hleft : q ∈ operators (fuse o first.head (others.map Run.head)).folded := by
        rw [hheads]
        exact mem_operators.mpr ⟨u, hu, huq⟩
      obtain ⟨w, hw, hwq⟩ := mem_operators.mp (mem_operators_fuse.mp hleft).1
      exact mem_operators.mpr ⟨w, List.mem_cons_of_mem _ hw, hwq⟩

/-- It has it as the sum of its summands too. -/
theorem groupedSum_of_spreads {t : Term α} {ts : List (Term α)}
    (ht : startsSummand t.operator = true) (hall : ∀ o ∈ operators (t :: ts), Spreads P o)
    (h : ∃ u ∈ t :: ts, P u.number) : P (groupedSum (levels ts) (t :: ts)) := by
  obtain ⟨u, hu, h⟩ := h
  have hfold := fold_contracted (.single t) (ts.map .single) ht
  rw [map_head_single] at hfold
  rw [← show _ = groupedSum (levels ts) (t :: ts) from hfold]
  refine fold_contracted_of_spreads hundefined ?_ ⟨.single u, ?_, h⟩
  · rw [List.map_cons, map_head_single]
    exact hall
  · exact List.mem_map_of_mem (f := Run.single) hu

end Steps

end Reckon
