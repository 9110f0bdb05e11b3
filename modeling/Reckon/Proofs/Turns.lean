import Reckon.Proofs.Faults

/-!
# Every operator has one turn

A reduction goes on contracting as long as more than one term is left and the
tightest of them is no addition. Nothing in that says how often: it asks for the
term that binds tightest among those that are left, and the list is another one
each time.

Here is the loop with its own tests (`Loops`), and the passes that it makes. There
is one for each operator that is not additive (`turns`), powers first and then the
product operators in the order in which they first occur, so there are four at the
most. That a turn is the last one of its operator is what `turns_fuse` says: of the
turns of a list a contraction takes the first away and leaves the others, in their
order. The loop can only end where no turn is left, and then every term is one of a
sum.
-/

namespace Reckon

variable {α ν : Type}

/-! ## The turns of a list -/

/-- **The operators that are contracted in a list**, in the order of their
turns. -/
def turns (ts : List (Term α ν)) : List Operator :=
  (if .pow ∈ operators ts then [.pow] else []) ++ products ts

theorem mem_turns {ts : List (Term α ν)} {o : Operator} :
    o ∈ turns ts ↔ o ∈ operators ts ∧ o.precedence ≠ 0 := by
  have hpow : o ∈ (if .pow ∈ operators ts then [Operator.pow] else [])
      ↔ o = .pow ∧ .pow ∈ operators ts := by
    by_cases h : .pow ∈ operators ts
    · rw [if_pos h, List.mem_singleton, and_iff_left h]
    · rw [if_neg h]
      exact iff_of_false List.not_mem_nil fun hand => h hand.2
  rw [turns, List.mem_append, hpow, mem_products]
  cases o <;> simp [Operator.precedence]

/-- With nothing to contract there are no turns. -/
theorem turns_of_none {ts : List (Term α ν)} (h : tightest ts = none) : turns ts = [] := by
  refine List.eq_nil_iff_forall_not_mem.mpr fun o ho => ?_
  obtain ⟨hmem, hne⟩ := mem_turns.mp ho
  obtain ⟨t, ht, hto⟩ := mem_operators.mp hmem
  have hstarts := startsSummand_of_tightest_eq_none h t ht
  rw [hto] at hstarts
  exact hne (beq_iff_eq.mp hstarts)

variable [Arithmetic α]

/-- **A contraction takes the first turn away** and leaves the others. -/
theorem turns_fuse {ts : List (Term α ν)} {o : Operator} (h : tightest ts = some o) (t : Term α ν) :
    turns ts = o :: turns (fuse o t ts).folded := by
  rw [turns, turns, if_neg (pow_not_mem_fuse h t)]
  rcases tightest_cases h with rfl | ⟨hpow, os, hos⟩
  · have hmem : .pow ∈ operators ts := mem_operators.mpr (exists_mem_of_tightest h)
    rw [if_pos hmem, products_fuse_pow]
    rfl
  · rw [if_neg hpow, products_eq_cons hos t]
    rfl

/-! ## The loop -/

/-- **The loop of a reduction**: it goes from some runs through contractions to its
end. -/
inductive Loops : List (Run α ν) → List (Contraction α ν) → Prop where
  /-- It ends with a single term. -/
  | single (r : Run α ν) : Loops [r] []
  /-- It ends where the tightest operator is additive. -/
  | sum {rs : List (Run α ν)} {t : Term α ν} {o : Operator} (hlength : 1 < rs.length)
    (htight : highest? (rs.map Run.head) = some t) (ho : t.operator = some o)
    (hadditive : o.precedence = 0) : Loops rs []
  /-- Otherwise it contracts the tightest operator, and goes on with what is left
  standing. -/
  | pass {rs : List (Run α ν)} {t : Term α ν} {c : Contraction α ν} {cs : List (Contraction α ν)}
    (hlength : 1 < rs.length) (htight : highest? (rs.map Run.head) = some t)
    (ho : t.operator = some c.operator) (htier : c.operator.precedence ≠ 0)
    (hcontract : contract (some c.operator) rs = .ok (c.first :: c.others))
    (hloop : Loops (c.first :: c.others) cs) : Loops rs (c :: cs)

/-- What terms are but for their values, run by run: their operators and their
nodes. -/
def shapes (rs : List (Run α ν)) : List (Option Operator × Option ν) :=
  (rs.flatMap Run.terms).map fun t => (t.operator, t.node)

/-- The loop goes one way. -/
theorem Loops.unique {rs : List (Run α ν)} {cs ds : List (Contraction α ν)} (h : Loops rs cs)
    (h' : Loops rs ds) : cs = ds := by
  induction h generalizing ds with
  | single r =>
    cases h' with
    | single => rfl
    | sum hlength => rfl
    | pass hlength => exact absurd hlength (Nat.lt_irrefl 1)
  | sum hlength htight ho hadditive =>
    cases h' with
    | single => rfl
    | sum => rfl
    | pass _ htight' ho' htier =>
      obtain rfl := Option.some.inj (htight.symm.trans htight')
      obtain rfl := Option.some.inj (ho.symm.trans ho')
      exact absurd hadditive htier
  | pass hlength htight ho htier hcontract hloop ih =>
    cases h' with
    | single => exact absurd hlength (Nat.lt_irrefl 1)
    | sum _ htight' ho' hadditive =>
      obtain rfl := Option.some.inj (htight.symm.trans htight')
      obtain rfl := Option.some.inj (ho.symm.trans ho')
      exact absurd hadditive htier
    | @pass _ _ d _ _ htight' ho' _ hcontract' hloop' =>
      obtain rfl := Option.some.inj (htight.symm.trans htight')
      have hoperator := Option.some.inj (ho.symm.trans ho')
      rw [← hoperator, hcontract] at hcontract'
      obtain ⟨hfirst, hothers⟩ := List.cons.inj (Except.ok.inj hcontract')
      rw [← hfirst, ← hothers] at hloop'
      obtain ⟨_, _, _⟩ := d
      subst hoperator hfirst hothers
      rw [ih hloop']

section Passes

variable {first : Run α ν} {others : List (Run α ν)} {o : Operator}

theorem map_head_contractAfter (o : Operator) (first : Run α ν) (others : List (Run α ν)) :
    (contractAfter (some o) first others).2.map Run.head
      = (fuse o first.head (others.map Run.head)).folded := by
  rw [heads_contractAfter]

/-- **A contraction changes nothing but values**: the runs, laid end to end, are the
same terms in the same order. -/
theorem shapes_contractAfter (o : Option Operator) (left : Run α ν) (rs : List (Run α ν)) :
    shapes ((contractAfter o left rs).1 :: (contractAfter o left rs).2) = shapes (left :: rs) := by
  induction rs generalizing left with
  | nil => rfl
  | cons r rs ih =>
    rw [contractAfter]
    split
    · rw [ih]
      simp [shapes, Run.terms, Run.absorb]
    · show shapes (left :: _ :: _) = _
      rw [shapes, List.flatMap_cons, List.map_append, ← shapes, ih r, shapes, shapes,
        ← List.map_append, ← List.flatMap_cons]

/-- The term in front keeps its operator. -/
theorem operator_first_contractAfter (o : Option Operator) (left : Run α ν) (rs : List (Run α ν)) :
    (contractAfter o left rs).1.head.operator = left.head.operator :=
  (Prod.mk.inj (List.cons.inj (shapes_contractAfter o left rs)).1).1

/-- What is contracted is not additive. -/
theorem precedence_ne_zero_of_tightest {ts : List (Term α ν)} (h : tightest ts = some o) :
    o.precedence ≠ 0 := by
  have hturn : o ∈ turns ts := turns_fuse h ⟨none, none, none⟩ ▸ List.mem_cons_self
  exact (mem_turns.mp hturn).2

/-- **The contractions of a list are the passes of the loop.** -/
theorem loops_contractions (first : Run α ν) (others : List (Run α ν))
    (hfirst : first.head.operator = some .add) :
    Loops (first :: others) (contractions first others) := by
  induction first, others using contracted_induction with
  | done first others hnone =>
    rw [contractions_of_none hnone]
    cases others with
    | nil => exact .single first
    | cons s rs =>
      exact .sum (Nat.succ_lt_succ (Nat.succ_pos _)) (highest?_of_none hfirst hnone) hfirst rfl
  | contract first others o hsome ih =>
    obtain ⟨t, ht, hto⟩ := highest?_of_tightest hfirst hsome
    have hpositive := precedence_ne_zero_of_tightest hsome
    have hadd : first.head.operator ≠ some o := by
      rw [hfirst]
      rintro h
      exact hpositive (Option.some.inj h ▸ rfl)
    have hlength : 1 < (first :: others).length := by
      obtain ⟨u, hu, -⟩ := exists_mem_of_tightest hsome
      obtain ⟨r, hr, -⟩ := List.mem_map.mp hu
      exact Nat.succ_lt_succ (List.length_pos_of_mem hr)
    rw [contractions_of_some hsome]
    refine .pass hlength ht hto hpositive ?_ (ih ?_)
    · exact if_neg hadd
    · exact (operator_first_contractAfter (some o) first others).trans hfirst

/-- **Each turn is one pass.** -/
theorem map_operator_contractions (first : Run α ν) (others : List (Run α ν)) :
    (contractions first others).map Contraction.operator = turns (others.map Run.head) := by
  induction first, others using contracted_induction with
  | done first others hnone =>
    rw [contractions_of_none hnone, turns_of_none hnone]
    rfl
  | contract first others o hsome ih =>
    rw [contractions_of_some hsome, List.map_cons, ih, map_head_contractAfter,
      turns_fuse hsome first.head]

/-- No operator has two turns. -/
theorem nodup_turns (ts : List (Term α ν)) : (turns ts).Nodup := by
  have hruns (first : Run α ν) (others : List (Run α ν)) : (turns (others.map Run.head)).Nodup := by
    induction first, others using contracted_induction with
    | done first others hnone =>
      rw [turns_of_none hnone]
      exact List.nodup_nil
    | contract first others o hsome ih =>
      rw [map_head_contractAfter] at ih
      rw [turns_fuse hsome first.head]
      refine List.nodup_cons.mpr ⟨fun hmem => ?_, ih⟩
      exact (mem_operators_fuse.mp (mem_turns.mp hmem).1).2 rfl
  have hsingle := hruns (.single ⟨none, none, none⟩) (ts.map .single)
  rwa [map_head_single] at hsingle

/-- **There are four turns at the most**, one for the powers and three for the
product operators. -/
theorem length_turns_le (ts : List (Term α ν)) : (turns ts).length ≤ 4 := by
  have hsubset : turns ts ⊆ [.pow, .mul, .div, .mod] := by
    intro o ho
    have hne := (mem_turns.mp ho).2
    cases o with
    | add | sub => exact absurd rfl hne
    | mul | div | mod | pow => decide
  exact (nodup_turns ts).length_le_of_subset hsubset

/-- No pass brings an operator in. -/
theorem operators_standing_subset {c : Contraction α ν} (hc : c ∈ contractions first others) :
    operators (c.others.map Run.head) ⊆ operators (others.map Run.head) := by
  induction first, others using contracted_induction with
  | done first others hnone =>
    rw [contractions_of_none hnone] at hc
    exact absurd hc List.not_mem_nil
  | contract first others o hsome ih =>
    have hnext : operators ((contractAfter (some o) first others).2.map Run.head)
        ⊆ operators (others.map Run.head) := by
      rw [map_head_contractAfter]
      exact fun q hq => (mem_operators_fuse.mp hq).1
    rw [contractions_of_some hsome] at hc
    rcases List.mem_cons.mp hc with rfl | hc
    · exact hnext
    · exact fun q hq => hnext (ih hc hq)

/-- The operator of a pass is not left among the terms behind the first. -/
theorem not_mem_operators_others (hsome : tightest (others.map Run.head) = some o) :
    ∀ c ∈ contractions first others, o ∉ operators (c.others.map Run.head) := by
  have hremoved : o ∉ operators ((contractAfter (some o) first others).2.map Run.head) := by
    rw [map_head_contractAfter]
    exact fun hmem => (mem_operators_fuse.mp hmem).2 rfl
  rw [contractions_of_some hsome]
  refine List.forall_mem_cons.mpr ⟨hremoved, fun c hc hmem => ?_⟩
  exact hremoved (operators_standing_subset hc hmem)

omit [Arithmetic α] in
/-- An addition in front is the one operator more that stands. -/
theorem mem_operators_standing {c : Contraction α ν} (h : c.first.head.operator = some .add) :
    o ∈ operators c.standing ↔ o = .add ∨ o ∈ operators (c.others.map Run.head) := by
  rw [Contraction.standing, List.map_cons, operators_cons_of_some h, List.mem_cons]

end Passes

/-! ## The passes of a reduction -/

/-- **What the passes of a reduction are** that starts from a first term and
others. -/
structure TakesTurns (first : Run α ν) (others : List (Run α ν)) (cs : List (Contraction α ν)) :
    Prop where
  /-- They are what the loop does, and it can do nothing else. -/
  loops_iff : ∀ ds, Loops (first :: others) ds ↔ ds = cs
  /-- Each operator that is not additive has one turn, and the turns are in their
  order. -/
  operators_eq : cs.map Contraction.operator = turns (others.map Run.head)
  /-- No operator has two. -/
  nodup : (cs.map Contraction.operator).Nodup
  /-- There are four at the most. -/
  length_le : cs.length ≤ 4
  /-- Each pass leaves fewer terms than it found. -/
  shorter : ((first :: others).map Run.head :: cs.map Contraction.standing).IsChain
    fun found left => left.length < found.length
  /-- A pass removes its operator. -/
  removes : ∀ c ∈ cs, c.operator ∉ operators c.standing
  /-- No later pass brings it back. -/
  for_good : cs.Pairwise fun c d => c.operator ∉ operators d.standing
  /-- The runs stand for the terms of the scope in their order, and the first run
  begins with the first term. -/
  shapes_eq : ∀ c ∈ cs, shapes (c.first :: c.others) = shapes (first :: others)
  /-- This one stays in front, as an addition. -/
  leads : ∀ c ∈ cs, c.first.head.operator = some .add
  /-- What stands in the end is a sum. -/
  ends : ∀ t ∈ ((contracted first others).1 :: (contracted first others).2).map Run.head,
    startsSummand t.operator = true

section Reduction

variable {first : Run α ν} {others : List (Run α ν)}

/-- No pass changes anything but values. -/
theorem shapes_contractions (first : Run α ν) (others : List (Run α ν)) :
    ∀ c ∈ contractions first others, shapes (c.first :: c.others) = shapes (first :: others) := by
  induction first, others using contracted_induction with
  | done first others hnone =>
    rw [contractions_of_none hnone]
    exact fun c hc => absurd hc List.not_mem_nil
  | contract first others o hsome ih =>
    have hnext := shapes_contractAfter (some o) first others
    rw [contractions_of_some hsome]
    exact List.forall_mem_cons.mpr ⟨hnext, fun c hc => (ih c hc).trans hnext⟩

/-- An addition in front is one after every pass. -/
theorem leads_contractions (first : Run α ν) (others : List (Run α ν))
    (hfirst : first.head.operator = some .add) :
    ∀ c ∈ contractions first others, c.first.head.operator = some .add := by
  intro c hc
  have hshape := (List.cons.inj (shapes_contractions first others c hc)).1
  exact (Prod.mk.inj hshape).1.trans hfirst

/-- **A pass removes its operator for good.** -/
theorem removes_contractions (first : Run α ν) (others : List (Run α ν))
    (hfirst : first.head.operator = some .add) :
    (∀ c ∈ contractions first others, c.operator ∉ operators c.standing)
      ∧ (contractions first others).Pairwise fun c d => c.operator ∉ operators d.standing := by
  induction first, others using contracted_induction with
  | done first others hnone =>
    rw [contractions_of_none hnone]
    exact ⟨fun c hc => absurd hc List.not_mem_nil, .nil⟩
  | contract first others o hsome ih =>
    obtain ⟨hremoves, hforgood⟩ := ih ((operator_first_contractAfter (some o) first others).trans hfirst)
    have hleads := leads_contractions first others hfirst
    -- The operator contracted is neither in front nor behind, in any list to come.
    have hgone : ∀ c ∈ contractions first others, o ∉ operators c.standing := by
      intro c hc hmem
      rcases (mem_operators_standing (hleads c hc)).mp hmem with rfl | hmem
      · exact precedence_ne_zero_of_tightest hsome rfl
      · exact not_mem_operators_others hsome c hc hmem
    rw [contractions_of_some hsome] at hgone ⊢
    obtain ⟨hfirstGone, hlaterGone⟩ := List.forall_mem_cons.mp hgone
    exact ⟨List.forall_mem_cons.mpr ⟨hfirstGone, hremoves⟩,
      List.pairwise_cons.mpr ⟨hlaterGone, hforgood⟩⟩

/-- **Behind an addition the contractions take turns.** -/
theorem takesTurns_contractions (first : Run α ν) (others : List (Run α ν))
    (hfirst : first.head.operator = some .add) :
    TakesTurns first others (contractions first others) where
  loops_iff := fun ds => ⟨fun h => h.unique (loops_contractions first others hfirst),
    fun h => h ▸ loops_contractions first others hfirst⟩
  operators_eq := map_operator_contractions first others
  nodup := by
    rw [map_operator_contractions]
    exact nodup_turns _
  length_le := by
    rw [← List.length_map Contraction.operator, map_operator_contractions]
    exact length_turns_le _
  shorter := by
    clear hfirst
    induction first, others using contracted_induction with
    | done first others hnone =>
      rw [contractions_of_none hnone]
      exact List.isChain_singleton _
    | contract first others o hsome ih =>
      obtain ⟨t, ht, hto⟩ := exists_mem_of_tightest hsome
      obtain ⟨r, hr, rfl⟩ := List.mem_map.mp ht
      rw [contractions_of_some hsome]
      refine List.isChain_cons_cons.mpr ⟨?_, ih⟩
      rw [Contraction.standing, List.length_map, List.length_map]
      exact Nat.succ_lt_succ (length_contractAfter_lt first ⟨r, hr, hto⟩)
  removes := (removes_contractions first others hfirst).1
  for_good := (removes_contractions first others hfirst).2
  shapes_eq := shapes_contractions first others
  leads := leads_contractions first others hfirst
  ends := by
    induction first, others using contracted_induction with
    | done first others hnone =>
      rw [contracted_of_none hnone]
      refine List.forall_mem_cons.mpr ⟨?_, startsSummand_of_tightest_eq_none hnone⟩
      rw [hfirst]
      rfl
    | contract first others o hsome ih =>
      rw [contracted_of_some hsome]
      exact ih ((operator_first_contractAfter (some o) first others).trans hfirst)

omit [Arithmetic α] in
/-- A first term that begins a summand has no turn. -/
theorem turns_cons_of_startsSummand {t : Term α ν} (h : startsSummand t.operator = true)
    (ts : List (Term α ν)) : turns (t :: ts) = turns ts := by
  rw [turns, turns, products, products]
  cases ho : t.operator with
  | none => rw [operators_cons_of_none ho]
  | some o =>
    rw [ho] at h
    rw [operators_cons_of_some ho]
    cases o with
    | add | sub => simp [Operator.precedence]
    | mul | div | mod | pow => exact absurd h (by decide)

/-- **In a reduction every operator has one turn.** From three terms on, behind a
first one that is additive or has no operator, the loop makes one pass for each
operator among powers and products that occurs, and no other: first the power, then
the product operators in the order in which they first occur. Each pass leaves
fewer terms, removes its operator for good and keeps the first term in front, which
is an addition by then. In the end there are only terms that begin a summand, or a
single one, and the value is their sum. -/
theorem reduce_takesTurns {t : Term α ν} (h : startsSummand t.operator = true) (u v : Term α ν)
    (ts : List (Term α ν)) :
    let first := Run.single t.lead
    let others := (u :: v :: ts).map Run.single
    let left := ((contracted first others).1 :: (contracted first others).2).map Run.head
    TakesTurns first others (contractions first others)
      ∧ (contractions first others).map Contraction.operator = turns (t :: u :: v :: ts)
      ∧ (reduce (t :: u :: v :: ts)).value = some (fold left) := by
  intro first others left
  have hadd : t.lead.operator = some .add := by rw [Term.operator_lead, if_pos h]
  refine ⟨takesTurns_contractions first others hadd, ?_, ?_⟩
  · rw [map_operator_contractions, map_head_single, turns_cons_of_startsSummand h]
  · rw [reduce_of_leading ((Term.operator_lead_eq_add_iff t).mp hadd)]

end Reduction

/-- A remainder before a product, a power behind both, and a nameless term. -/
theorem reduce_takesTurns_mixed :
    let t : Term Float := ⟨some .sub, some 8, none⟩
    let u : Term Float := ⟨some .mod, some 5, none⟩
    let v : Term Float := ⟨some .mul, some 3, none⟩
    let ts : List (Term Float) := [⟨some .pow, some 2, none⟩, ⟨none, some 1, none⟩]
    let first := Run.single t.lead
    let others := (u :: v :: ts).map Run.single
    startsSummand t.operator = true ∧ TakesTurns first others (contractions first others)
      ∧ (contractions first others).map Contraction.operator = [.pow, .mod, .mul]
      ∧ (reduce (t :: u :: v :: ts)).value = some (fold
        (((contracted first others).1 :: (contracted first others).2).map Run.head)) := by
  intro t u v ts first others
  have hstarts : startsSummand t.operator = true := rfl
  obtain ⟨hturns, hoperators, hvalue⟩ := reduce_takesTurns hstarts u v ts
  exact ⟨hstarts, hturns, hoperators, hvalue⟩

end Reckon
