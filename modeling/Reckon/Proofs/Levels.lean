import Reckon.Proofs.Contraction

/-!
# Levels of binding

A reduction contracts one operator after the other, over the whole list each
time. A grammar works the other way round: it splits the list at the operators
that bind loosest, splits each part at the next looser ones, and meets the
powers last. This module has that reading, `Run.collapse`, and shows that the
contractions compute it.

The levels are not fixed. Powers bind tightest; of the product operators the
one that comes first in the list binds tightest, and so on (`levels`). What
makes the two readings agree is that a contraction of the tightest level can be
made in every part for itself, because a split at a looser operator never cuts
through a run of the tightest (`segments_fuse`). So one contraction takes the
tightest level off (`Run.collapse_fuse`), and the levels of what it leaves are
the levels that are left (`products_fuse`).

Nothing is asked of the arithmetic: no operation has to be associative, and an
undefined operand is one like any other.
-/

namespace Reckon

variable {α ν : Type}

/-! ## The levels of a list -/

/-- The operators of a list, in order; a term without one has none to give. -/
def operators (ts : List (Term α ν)) : List Operator :=
  ts.filterMap Term.operator

theorem operators_cons_of_none {t : Term α ν} {ts : List (Term α ν)} (h : t.operator = none) :
    operators (t :: ts) = operators ts :=
  List.filterMap_cons_none h

theorem operators_cons_of_some {t : Term α ν} {ts : List (Term α ν)} {o : Operator}
    (h : t.operator = some o) : operators (t :: ts) = o :: operators ts :=
  List.filterMap_cons_some h

theorem mem_operators {o : Operator} {ts : List (Term α ν)} :
    o ∈ operators ts ↔ ∃ t ∈ ts, t.operator = some o :=
  List.mem_filterMap

/-- **The product operators of a list**, each once, in the order in which they
first occur. -/
def products (ts : List (Term α ν)) : List Operator :=
  ((operators ts).filter fun o => o.precedence == 1).eraseDups

/-- **The levels of a list, the loosest first.** Powers are the tightest, and
of two product operators the one that occurs first is the tighter one. -/
def levels (ts : List (Term α ν)) : List Operator :=
  (products ts).reverse ++ [.pow]

/-- Terms with nothing folded into them stand for themselves. -/
theorem map_head_single (ts : List (Term α ν)) : (ts.map Run.single).map Run.head = ts := by
  rw [List.map_map]
  exact List.map_id ts

/-! ## Parts of a list -/

/-- **Splits terms at some of their operators**: the terms before the first of
these, and then each of them with the terms up to the next. -/
def segments (p : Option Operator → Bool) :
    List (Term α ν) → List (Term α ν) × List (Run α ν)
  | [] => ([], [])
  | t :: ts =>
    let (seed, steps) := segments p ts
    if p t.operator then ([], ⟨t, seed⟩ :: steps) else (t :: seed, steps)

/-- Does a term with this operator begin a summand? It does if it is additive,
and also if the operator is missing. -/
def startsSummand : Option Operator → Bool
  | some o => o.precedence == 0
  | none => true

section Splitting

variable {p : Option Operator → Bool} {t : Term α ν} {ts : List (Term α ν)}

theorem segments_cons_of_pos (h : p t.operator = true) :
    segments p (t :: ts)
      = ([], ⟨t, (segments p ts).1⟩ :: (segments p ts).2) :=
  if_pos h

theorem segments_cons_of_neg (h : p t.operator = false) :
    segments p (t :: ts) = (t :: (segments p ts).1, (segments p ts).2) :=
  if_neg (Bool.eq_false_iff.mp h)

/-- A list without a place to split at is one part. -/
theorem segments_eq_of_forall_neg (h : ∀ t ∈ ts, p t.operator = false) :
    segments p ts = (ts, []) := by
  induction ts with
  | nil => rfl
  | cons t ts ih =>
    rw [segments_cons_of_neg (h t List.mem_cons_self),
      ih fun u hu => h u (List.mem_cons_of_mem _ hu)]

/-- A list that is split everywhere falls into single terms. -/
theorem segments_eq_of_forall_pos (h : ∀ t ∈ ts, p t.operator = true) :
    segments p ts = ([], ts.map .single) := by
  induction ts with
  | nil => rfl
  | cons t ts ih =>
    rw [segments_cons_of_pos (h t List.mem_cons_self),
      ih fun u hu => h u (List.mem_cons_of_mem _ hu)]
    rfl

/-- **The parts hold terms of the list**: the head of a part begins one, and none
behind it does. -/
theorem mem_of_mem_segments (p : Option Operator → Bool) (ts : List (Term α ν)) :
    (∀ u ∈ (segments p ts).1, u ∈ ts ∧ p u.operator = false)
      ∧ ∀ r ∈ (segments p ts).2, (r.head ∈ ts ∧ p r.head.operator = true)
        ∧ ∀ u ∈ r.folded, u ∈ ts ∧ p u.operator = false := by
  induction ts with
  | nil => exact ⟨by simp [segments], by simp [segments]⟩
  | cons t ts ih =>
    obtain ⟨hseed, hsteps⟩ := ih
    have hseed' : ∀ u ∈ (segments p ts).1, u ∈ t :: ts ∧ p u.operator = false :=
      fun u hu => ⟨List.mem_cons_of_mem _ (hseed u hu).1, (hseed u hu).2⟩
    have hsteps' : ∀ r ∈ (segments p ts).2, (r.head ∈ t :: ts ∧ p r.head.operator = true)
        ∧ ∀ u ∈ r.folded, u ∈ t :: ts ∧ p u.operator = false :=
      fun r hr => ⟨⟨List.mem_cons_of_mem _ (hsteps r hr).1.1, (hsteps r hr).1.2⟩, fun u hu =>
        ⟨List.mem_cons_of_mem _ ((hsteps r hr).2 u hu).1, ((hsteps r hr).2 u hu).2⟩⟩
    cases h : p t.operator with
    | true =>
      rw [segments_cons_of_pos h]
      exact ⟨fun u hu => absurd hu List.not_mem_nil,
        List.forall_mem_cons.mpr ⟨⟨⟨List.mem_cons_self, h⟩, hseed'⟩, hsteps'⟩⟩
    | false =>
      rw [segments_cons_of_neg h]
      exact ⟨List.forall_mem_cons.mpr ⟨⟨List.mem_cons_self, h⟩, hseed'⟩, hsteps'⟩

end Splitting

section Grouping

variable [Arithmetic α]

/-- **Takes a term in** as the right operand of its operator. -/
def Term.absorb (left t : Term α ν) : Term α ν :=
  { left with value := some (t.apply left.number) }

/-- **What a run comes to** under levels that are given from the loosest on.
Below the last level there is nothing to apply, and the head stands for the
run. At a level the run is split at its operator, each part comes to a term
under the tighter levels, and these are applied from left to right. -/
def Run.collapse : List Operator → Run α ν → Term α ν
  | [], r => r.head
  | o :: tighter, r =>
    let (seed, steps) := segments (· == some o) r.folded
    (steps.map (collapse tighter)).foldl Term.absorb (collapse tighter ⟨r.head, seed⟩)

/-- **The sum of a list** under the given levels: one summand for each term
that begins one, and they are applied from left to right, starting from zero. -/
def groupedSum (levels : List Operator) (ts : List (Term α ν)) : α :=
  fold ((segments startsSummand ts).2.map (Run.collapse levels))

namespace Run

theorem collapse_cons (o : Operator) (l : List Operator) (r : Run α ν) :
    collapse (o :: l) r
      = ((segments (· == some o) r.folded).2.map (collapse l)).foldl Term.absorb
          (collapse l ⟨r.head, (segments (· == some o) r.folded).1⟩) := rfl

/-- A term with nothing behind it comes to itself. -/
@[simp] theorem collapse_single (l : List Operator) (t : Term α ν) :
    collapse l (single t) = t := by
  induction l with
  | nil => rfl
  | cons o l ih => exact ih

/-- **What a run comes to is its head** with another value. -/
theorem collapse_keeps (l : List Operator) (r : Run α ν) :
    (collapse l r).operator = r.head.operator ∧ (collapse l r).node = r.head.node := by
  have hfoldl (ts : List (Term α ν)) (t : Term α ν) :
      (ts.foldl Term.absorb t).operator = t.operator
        ∧ (ts.foldl Term.absorb t).node = t.node := by
    induction ts generalizing t with
    | nil => exact ⟨rfl, rfl⟩
    | cons u us ih => exact ih (t.absorb u)
  induction l generalizing r with
  | nil => exact ⟨rfl, rfl⟩
  | cons o l ih =>
    rw [collapse_cons, (hfoldl _ _).1, (hfoldl _ _).2]
    exact ih _

theorem operator_collapse (l : List Operator) (r : Run α ν) :
    (collapse l r).operator = r.head.operator :=
  (collapse_keeps l r).1

/-- A level whose operator does not occur changes nothing. -/
theorem collapse_cons_of_not_mem {o : Operator} {l : List Operator} {r : Run α ν}
    (h : ∀ t ∈ r.folded, t.operator ≠ some o) : collapse (o :: l) r = collapse l r := by
  rw [collapse_cons, segments_eq_of_forall_neg (p := (· == some o))
    fun t ht => beq_eq_false_iff_ne.mpr (h t ht)]
  rfl

/-- **Only the levels that occur count.** Others can be left out, wherever they
are among them. -/
theorem collapse_filter {keeps : Operator → Bool} (l : List Operator) {r : Run α ν}
    (h : ∀ o ∈ l, keeps o = false → ∀ t ∈ r.folded, t.operator ≠ some o) :
    collapse (l.filter keeps) r = collapse l r := by
  induction l generalizing r with
  | nil => rfl
  | cons o l ih =>
    have hl : ∀ q ∈ l, keeps q = false → ∀ t ∈ r.folded, t.operator ≠ some q :=
      fun q hq => h q (List.mem_cons_of_mem _ hq)
    cases hkeep : keeps o with
    | false =>
      rw [List.filter_cons_of_neg (Bool.eq_false_iff.mp hkeep),
        collapse_cons_of_not_mem (h o List.mem_cons_self hkeep), ih hl]
    | true =>
      obtain ⟨hseed, hsteps⟩ := mem_of_mem_segments (· == some o) r.folded
      rw [List.filter_cons_of_pos hkeep, collapse_cons, collapse_cons,
        ih fun q hq hkq t ht => hl q hq hkq t (hseed t ht).1]
      refine congrArg (List.foldl _ _) (List.map_congr_left fun s hs => ?_)
      exact ih fun q hq hkq t ht => hl q hq hkq t ((hsteps s hs).2 t ht).1

end Run

/-! ## Contracting the tightest level -/

/-- **Contracts an operator behind a term**: the run of what is left, each term
with those of the operator that follow it taken in. -/
def fuse (o : Operator) (t : Term α ν) : List (Term α ν) → Run α ν
  | [] => .single t
  | u :: us =>
    if u.operator = some o then fuse o (t.absorb u) us else ⟨t, (fuse o u us).terms⟩

section Fusing

variable {o : Operator} {t u : Term α ν} {us : List (Term α ν)}

theorem fuse_cons_of_eq (h : u.operator = some o) :
    fuse o t (u :: us) = fuse o (t.absorb u) us :=
  if_pos h

theorem fuse_cons_of_ne (h : u.operator ≠ some o) :
    fuse o t (u :: us) = ⟨t, (fuse o u us).terms⟩ :=
  if_neg h

/-- The term in front keeps its operator. -/
theorem operator_head_fuse (o : Operator) (t : Term α ν) (ts : List (Term α ν)) :
    (fuse o t ts).head.operator = t.operator := by
  induction ts generalizing t with
  | nil => rfl
  | cons u us ih =>
    by_cases h : u.operator = some o
    · rw [fuse_cons_of_eq h, ih]
      rfl
    · rw [fuse_cons_of_ne h]

/-- Where an operator does not occur, nothing is contracted. -/
theorem fuse_eq_of_forall_ne (h : ∀ u ∈ us, u.operator ≠ some o) (t : Term α ν) :
    fuse o t us = ⟨t, us⟩ := by
  induction us generalizing t with
  | nil => rfl
  | cons u us ih =>
    rw [fuse_cons_of_ne (h u List.mem_cons_self), ih (fun w hw => h w (List.mem_cons_of_mem _ hw))]
    rfl

/-- **A contraction takes its operator away** and leaves the others as they
are. -/
theorem operators_fuse (o : Operator) (t : Term α ν) (ts : List (Term α ν)) :
    operators (fuse o t ts).folded = (operators ts).filter (· != o) := by
  induction ts generalizing t with
  | nil => rfl
  | cons u us ih =>
    by_cases h : u.operator = some o
    · rw [fuse_cons_of_eq h, ih, operators_cons_of_some h, List.filter_cons_of_neg (by simp)]
    · have hhead := operator_head_fuse o u us
      rw [fuse_cons_of_ne h]
      show operators ((fuse o u us).head :: (fuse o u us).folded) = _
      cases hu : u.operator with
      | none =>
        rw [operators_cons_of_none (hhead.trans hu), operators_cons_of_none hu, ih u]
      | some q =>
        have hq : (q != o) = true := bne_iff_ne.mpr fun hqo => h (hqo ▸ hu)
        rw [operators_cons_of_some (hhead.trans hu), operators_cons_of_some hu, ih u]
        exact (List.filter_cons_of_pos (p := (· != o)) hq).symm

/-- A contraction of runs is one of their heads. -/
theorem heads_contractAfter (o : Operator) (left : Run α ν) (rs : List (Run α ν)) :
    fuse o left.head (rs.map Run.head)
      = ⟨(contractAfter (some o) left rs).1.head,
          (contractAfter (some o) left rs).2.map Run.head⟩ := by
  induction rs generalizing left with
  | nil => rfl
  | cons r rs ih =>
    rw [contractAfter]
    by_cases h : r.head.operator = some o
    · rw [if_pos h, List.map_cons, fuse_cons_of_eq h]
      exact ih (left.absorb r)
    · rw [if_neg h, List.map_cons, fuse_cons_of_ne h, ih r]
      rfl

/-- **A split commutes with a contraction** of an operator that it does not
split at: every part is contracted for itself. -/
theorem segments_fuse {p : Option Operator → Bool} (ho : p (some o) = false)
    (t : Term α ν) (ts : List (Term α ν)) :
    Run.mk (fuse o t ts).head (segments p (fuse o t ts).folded).1
        = fuse o t (segments p ts).1
      ∧ (segments p (fuse o t ts).folded).2
        = (segments p ts).2.map fun s => fuse o s.head s.folded := by
  induction ts generalizing t with
  | nil => exact ⟨rfl, rfl⟩
  | cons u us ih =>
    by_cases h : u.operator = some o
    · rw [fuse_cons_of_eq h, segments_cons_of_neg (h ▸ ho), fuse_cons_of_eq h]
      exact ih (t.absorb u)
    · obtain ⟨hseed, hsteps⟩ := ih u
      have hhead := operator_head_fuse o u us
      rw [fuse_cons_of_ne h]
      cases hs : p u.operator with
      | true =>
        rw [segments_cons_of_pos hs, Run.terms, segments_cons_of_pos (hhead ▸ hs), hseed,
          hsteps]
        exact ⟨rfl, rfl⟩
      | false =>
        rw [segments_cons_of_neg hs, Run.terms, segments_cons_of_neg (hhead ▸ hs),
          hsteps, fuse_cons_of_ne h, ← hseed]
        exact ⟨rfl, rfl⟩

/-- **A contraction takes the tightest level off**, if no other operator than
those of the levels is there. -/
theorem Run.collapse_fuse {o : Operator} (l : List Operator) (ho : o ∉ l) {r : Run α ν}
    (hr : ∀ t ∈ r.folded, ∃ q ∈ l ++ [o], t.operator = some q) :
    collapse l (fuse o r.head r.folded) = collapse (l ++ [o]) r := by
  induction l generalizing r with
  | nil =>
    -- Only the operator itself is left, and both sides apply it term by term.
    obtain ⟨t, ts⟩ := r
    have hts : ∀ u ∈ ts, u.operator = some o := by
      intro u hu
      obtain ⟨q, hq, h⟩ := hr u hu
      rw [List.nil_append, List.mem_singleton] at hq
      rw [h, hq]
    rw [List.nil_append, collapse_cons,
      segments_eq_of_forall_pos (p := (· == some o)) fun u hu => beq_iff_eq.mpr (hts u hu),
      List.map_map]
    show (fuse o t ts).head = (ts.map id).foldl Term.absorb t
    rw [List.map_id]
    clear hr
    induction ts generalizing t with
    | nil => rfl
    | cons u us ih =>
      rw [fuse_cons_of_eq (hts u List.mem_cons_self)]
      exact ih (t.absorb u) fun w hw => hts w (List.mem_cons_of_mem _ hw)
  | cons q l ih =>
    have hql : o ∉ l := fun h => ho (List.mem_cons_of_mem _ h)
    have hqo : ((some o : Option Operator) == some q) = false :=
      beq_eq_false_iff_ne.mpr fun h => ho (Option.some.inj h ▸ List.mem_cons_self)
    -- In a part the operator of the level does not occur.
    have hpart : ∀ us : List (Term α ν), (∀ u ∈ us, u ∈ r.folded ∧ (u.operator == some q) = false)
        → ∀ u ∈ us, ∃ p ∈ l ++ [o], u.operator = some p := by
      intro us hus u hu
      obtain ⟨hmem, hne⟩ := hus u hu
      obtain ⟨p, hp, h⟩ := hr u hmem
      rcases List.mem_cons.mp hp with rfl | hp
      · exact absurd (h ▸ hne) (by simp)
      · exact ⟨p, hp, h⟩
    obtain ⟨hmemSeed, hmemSteps⟩ := mem_of_mem_segments (· == some q) r.folded
    obtain ⟨hseed, hsteps⟩ := segments_fuse (p := (· == some q)) hqo r.head r.folded
    rw [List.cons_append, collapse_cons, collapse_cons, hseed, hsteps, List.map_map,
      ih hql (r := ⟨r.head, _⟩) (hpart _ hmemSeed)]
    refine congrArg (List.foldl _ _) (List.map_congr_left fun s hs => ?_)
    exact ih hql (hpart _ (hmemSteps s hs).2)

end Fusing

/-! ## The levels that are left -/

omit [Arithmetic α] in
theorem mem_products {o : Operator} {ts : List (Term α ν)} :
    o ∈ products ts ↔ o ∈ operators ts ∧ o.precedence = 1 := by
  rw [products, List.mem_eraseDups, List.mem_filter, beq_iff_eq]

omit [Arithmetic α] in
theorem ofTier_eq_head? (ts : List (Term α ν)) (tier : Nat) :
    tightest.ofTier ts tier
      = ((operators ts).filter fun o => o.precedence == tier).head? := by
  rw [operators, List.filter_filterMap, List.head?_filterMap]
  rfl

/-- Power is the one operator of its tier. -/
theorem Operator.precedence_eq_two_iff {o : Operator} : o.precedence = 2 ↔ o = .pow := by
  cases o <;> decide

omit [Arithmetic α] in
/-- **What the tightest operator can be**: a power, or without one the product
operator that comes first. -/
theorem tightest_cases {ts : List (Term α ν)} {o : Operator} (h : tightest ts = some o) :
    o = .pow ∨ (.pow ∉ operators ts
      ∧ ∃ os, ((operators ts).filter fun q => q.precedence == 1) = o :: os) := by
  rw [tightest, ofTier_eq_head?, ofTier_eq_head?] at h
  cases hpow : (operators ts).filter fun q => q.precedence == 2 with
  | cons q os =>
    rw [hpow] at h
    obtain rfl : q = o := Option.some.inj h
    have hq : q ∈ (operators ts).filter fun q => q.precedence == 2 :=
      hpow ▸ List.mem_cons_self
    exact .inl (Operator.precedence_eq_two_iff.mp (beq_iff_eq.mp (List.mem_filter.mp hq).2))
  | nil =>
    rw [hpow] at h
    refine .inr ⟨fun hmem => ?_, List.head?_eq_some_iff.mp h⟩
    exact List.filter_eq_nil_iff.mp hpow .pow hmem rfl

omit [Arithmetic α] in
/-- With nothing to contract every term begins a summand. -/
theorem startsSummand_of_tightest_eq_none {ts : List (Term α ν)} (h : tightest ts = none) :
    ∀ t ∈ ts, startsSummand t.operator = true := by
  rw [tightest, ofTier_eq_head?, ofTier_eq_head?, Option.or_eq_none_iff, List.head?_eq_none_iff,
    List.head?_eq_none_iff, List.filter_eq_nil_iff, List.filter_eq_nil_iff] at h
  intro t ht
  cases ho : t.operator with
  | none => rfl
  | some o =>
    have hmem : o ∈ operators ts := mem_operators.mpr ⟨t, ht, ho⟩
    have hpow := h.1 o hmem
    have hproduct := h.2 o hmem
    cases o with
    | add => rfl
    | sub => rfl
    | mul => exact absurd rfl hproduct
    | div => exact absurd rfl hproduct
    | mod => exact absurd rfl hproduct
    | pow => exact absurd rfl hpow

omit [Arithmetic α] in
/-- A power is contracted before everything else. -/
theorem tightest_eq_pow {ts : List (Term α ν)} (h : .pow ∈ operators ts) :
    tightest ts = some .pow := by
  rw [tightest, ofTier_eq_head?]
  cases hpow : (operators ts).filter fun o => o.precedence == 2 with
  | nil => exact absurd (List.filter_eq_nil_iff.mp hpow .pow h) (by decide)
  | cons o os =>
    have ho : o ∈ (operators ts).filter fun o => o.precedence == 2 := hpow ▸ List.mem_cons_self
    rw [Operator.precedence_eq_two_iff.mp (beq_iff_eq.mp (List.mem_filter.mp ho).2)]
    rfl

omit [Arithmetic α] in
/-- What is contracted begins no summand. -/
theorem startsSummand_of_tightest {ts : List (Term α ν)} {o : Operator} (h : tightest ts = some o) :
    startsSummand (some o) = false := by
  rcases tightest_cases h with rfl | ⟨_, os, hos⟩
  · rfl
  · have hmem : o ∈ (operators ts).filter fun q => q.precedence == 1 :=
      hos ▸ List.mem_cons_self
    have hone := beq_iff_eq.mp (List.mem_filter.mp hmem).2
    show (o.precedence == 0) = false
    rw [hone]
    rfl

section Levels

variable {o : Operator} {ts : List (Term α ν)}

theorem mem_operators_fuse {q : Operator} {t : Term α ν} :
    q ∈ operators (fuse o t ts).folded ↔ q ∈ operators ts ∧ q ≠ o := by
  rw [operators_fuse, List.mem_filter, bne_iff_ne]

/-- **A contraction leaves the other levels** in their order. -/
theorem products_fuse (t : Term α ν) :
    products (fuse o t ts).folded
      = (((operators ts).filter fun q => q.precedence == 1).filter (· != o)).eraseDups := by
  rw [products, operators_fuse, List.filter_filter, List.filter_filter]
  refine congrArg (fun p => (List.filter p (operators ts)).eraseDups) (funext fun q => ?_)
  exact Bool.and_comm _ _

/-- Contracting the powers leaves every product level. -/
theorem products_fuse_pow (t : Term α ν) : products (fuse .pow t ts).folded = products ts := by
  rw [products_fuse, List.filter_eq_self.mpr fun q hq => ?_]
  · rfl
  · have hone := beq_iff_eq.mp (List.mem_filter.mp hq).2
    rw [bne_iff_ne]
    rintro rfl
    exact absurd hone (by decide)

/-- Contracting the product operator that comes first takes its level away. -/
theorem products_eq_cons {os : List Operator}
    (h : ((operators ts).filter fun q => q.precedence == 1) = o :: os) (t : Term α ν) :
    products ts = o :: products (fuse o t ts).folded := by
  rw [products_fuse, products, h, List.eraseDups_cons, List.filter_cons_of_neg (by simp)]
  rfl

/-- No power is left once the tightest operator is contracted. -/
theorem pow_not_mem_fuse (h : tightest ts = some o) (t : Term α ν) :
    .pow ∉ operators (fuse o t ts).folded := by
  rw [mem_operators_fuse]
  rintro ⟨hmem, hne⟩
  rcases tightest_cases h with rfl | ⟨hpow, _⟩
  · exact hne rfl
  · exact hpow hmem

namespace Run

/-- A power level counts only if there is a power. -/
theorem collapse_levels_of_no_pow {us : List (Term α ν)} {r : Run α ν}
    (h : .pow ∉ operators r.folded) :
    collapse (levels us) r = collapse (products us).reverse r := by
  have hproducts : (products us).reverse.filter (· != .pow) = (products us).reverse := by
    rw [List.filter_eq_self]
    intro q hq
    have hone := (mem_products.mp (List.mem_reverse.mp hq)).2
    rw [bne_iff_ne]
    rintro rfl
    exact absurd hone (by decide)
  have hlevels : (levels us).filter (· != .pow) = (products us).reverse := by
    rw [levels, List.filter_append, hproducts]
    exact List.append_nil _
  rw [← hlevels]
  refine (collapse_filter _ fun q _ hq u hu huq => h ?_).symm
  rw [bne_eq_false_iff_eq] at hq
  exact mem_operators.mpr ⟨u, hu, hq ▸ huq⟩

/-- **The tightest operator is the last level** of those that it is contracted
under. -/
theorem collapse_levels_of_tightest (h : tightest ts = some o) (t : Term α ν) {r : Run α ν}
    (hr : ∀ u ∈ r.folded, u ∈ ts) :
    collapse (levels ts) r = collapse ((products (fuse o t ts).folded).reverse ++ [o]) r := by
  rcases tightest_cases h with rfl | ⟨hpow, os, hos⟩
  · rw [products_fuse_pow]
    rfl
  · rw [← List.reverse_cons, ← products_eq_cons hos t]
    refine collapse_levels_of_no_pow fun hmem => hpow ?_
    obtain ⟨u, hu, huo⟩ := mem_operators.mp hmem
    exact mem_operators.mpr ⟨u, hr u hu, huo⟩

/-- **A contraction of the tightest operator does not change what a part comes
to**, if the levels are told anew behind it. -/
theorem collapse_levels_fuse (h : tightest ts = some o) (t : Term α ν) {r : Run α ν}
    (hr : ∀ u ∈ r.folded, u ∈ ts ∧ startsSummand u.operator = false) :
    collapse (levels (fuse o t ts).folded) (fuse o r.head r.folded) = collapse (levels ts) r := by
  have hpow := pow_not_mem_fuse h t
  -- An operator of the part is the one contracted, or one of those left.
  have hleft : ∀ q ∈ operators r.folded, q ≠ o → q ∈ operators (fuse o t ts).folded := by
    intro q hq hne
    obtain ⟨u, hu, hqu⟩ := mem_operators.mp hq
    exact mem_operators_fuse.mpr ⟨mem_operators.mpr ⟨u, (hr u hu).1, hqu⟩, hne⟩
  have hnone : .pow ∉ operators (fuse o r.head r.folded).folded := fun hmem =>
    hpow (hleft _ (mem_operators_fuse.mp hmem).1 (mem_operators_fuse.mp hmem).2)
  rw [collapse_levels_of_tightest h t fun u hu => (hr u hu).1, collapse_levels_of_no_pow hnone]
  refine collapse_fuse _ (fun hmem => ?_) fun u hu => ?_
  · exact (mem_operators_fuse.mp (mem_products.mp (List.mem_reverse.mp hmem)).1).2 rfl
  · cases hq : u.operator with
    | none => exact absurd (hq ▸ (hr u hu).2) (by decide)
    | some q =>
      refine ⟨q, ?_, rfl⟩
      rw [List.mem_append, List.mem_reverse, List.mem_singleton]
      by_cases hqo : q = o
      · exact .inr hqo
      · have hmem := hleft q (mem_operators.mpr ⟨u, hu, hq⟩) hqo
        have hstarts := hq ▸ (hr u hu).2
        refine .inl (mem_products.mpr ⟨hmem, ?_⟩)
        cases q with
        | add => exact absurd hstarts (by decide)
        | sub => exact absurd hstarts (by decide)
        | pow => exact absurd hmem hpow
        | mul | div | mod => rfl

end Run

end Levels

/-! ## The sum -/

/-- A term that begins a summand is in front of the first one. -/
theorem groupedSum_cons {l : List Operator} {t : Term α ν} {ts : List (Term α ν)}
    (h : startsSummand t.operator = true) :
    groupedSum l (t :: ts)
      = fold ((⟨t, (segments startsSummand ts).1⟩ :: (segments startsSummand ts).2).map
          (Run.collapse l)) := by
  rw [groupedSum, segments_cons_of_pos h]

/-- **A contraction of the tightest operator does not change the sum.** -/
theorem groupedSum_fuse {o : Operator} {t : Term α ν} {ts : List (Term α ν)}
    (ht : startsSummand t.operator = true) (h : tightest ts = some o) :
    groupedSum (levels (fuse o t ts).folded) (fuse o t ts).terms
      = groupedSum (levels ts) (t :: ts) := by
  obtain ⟨hseed, hsteps⟩ := segments_fuse (startsSummand_of_tightest h) t ts
  obtain ⟨hmemSeed, hmemSteps⟩ := mem_of_mem_segments startsSummand ts
  rw [Run.terms, groupedSum_cons ((operator_head_fuse o t ts).symm ▸ ht), groupedSum_cons ht,
    hseed, hsteps, List.map_cons, List.map_cons, List.map_map,
    Run.collapse_levels_fuse h t (r := ⟨t, _⟩) hmemSeed]
  refine congrArg (fun us => fold (_ :: us)) (List.map_congr_left fun s hs => ?_)
  exact Run.collapse_levels_fuse h t (hmemSteps s hs).2

/-- **The powers of a sum can be contracted first**, if there are any. -/
theorem groupedSum_fuse_pow {t : Term α ν} (ht : startsSummand t.operator = true)
    (ts : List (Term α ν)) :
    groupedSum (levels (fuse .pow t ts).folded) (fuse .pow t ts).terms
      = groupedSum (levels ts) (t :: ts) := by
  by_cases h : .pow ∈ operators ts
  · exact groupedSum_fuse ht (tightest_eq_pow h)
  · rw [fuse_eq_of_forall_ne fun u hu huo => h (mem_operators.mpr ⟨u, hu, huo⟩)]
    rfl

/-- **The contractions compute the sum** of the list, with its powers and
products grouped by levels. -/
theorem fold_contracted (first : Run α ν) (others : List (Run α ν))
    (hfirst : startsSummand first.head.operator = true) :
    fold (((contracted first others).1 :: (contracted first others).2).map Run.head)
      = groupedSum (levels (others.map Run.head)) (first.head :: others.map Run.head) := by
  induction first, others using contracted_induction with
  | done first others hnone =>
    -- Every term is a summand of its own.
    rw [contracted_of_none hnone, groupedSum_cons hfirst,
      segments_eq_of_forall_pos (startsSummand_of_tightest_eq_none hnone)]
    have hsingle : Run.collapse (levels (others.map Run.head)) ∘ Run.single = @id (Term α ν) :=
      funext fun t => Run.collapse_single _ t
    show _ = fold (((first.head :: others.map Run.head).map Run.single).map (Run.collapse _))
    rw [List.map_map, hsingle, List.map_id]
    rfl
  | contract first others o hsome ih =>
    have hheads := heads_contractAfter o first others
    have hkept : (contractAfter (some o) first others).1.head.operator = first.head.operator := by
      rw [← operator_head_fuse o first.head (others.map Run.head), hheads]
    rw [contracted_of_some hsome, ih (hkept ▸ hfirst), ← groupedSum_fuse hfirst hsome, hheads]
    rfl

/-- Leading makes a first term an addition, unless it is a product or a power. -/
theorem Term.operator_lead_eq_add_iff (t : Term α ν) :
    t.lead.operator = some .add ↔ ¬ 0 < t.lead.precedence := by
  obtain ⟨_ | o, v, g⟩ := t
  · exact iff_of_true rfl (Int.lt_irrefl 0)
  · cases o with
    | add | sub => exact iff_of_true rfl (Int.lt_irrefl 0)
    | mul | div | mod => exact iff_of_false (by simp [Term.lead]) (not_not_intro Int.zero_lt_one)
    | pow => exact iff_of_false (by simp [Term.lead]) (not_not_intro (Int.natCast_pos.mpr Nat.zero_lt_two))

/-- Leading makes a first term an addition if it begins a summand. -/
theorem Term.operator_lead (t : Term α ν) :
    t.lead.operator = if startsSummand t.operator then some .add else t.operator := by
  obtain ⟨_ | o, v, g⟩ := t
  · rfl
  · cases o <;> rfl

/-- If it does not, nothing can be contracted into it. -/
theorem Term.precedence_lead_pos {t : Term α ν} (h : startsSummand t.operator = false) :
    0 < t.lead.precedence := by
  refine Decidable.not_not.mp fun hnot => ?_
  have hadd := (Term.operator_lead_eq_add_iff t).mpr hnot
  rw [Term.operator_lead, h] at hadd
  rw [show t.operator = some .add from hadd] at h
  exact absurd h (by decide)

/-- **What contracting a list leaves standing, summed**: all its operators are
contracted behind the first term once it leads, however many terms there
are. -/
def contractedSum (t : Term α ν) (ts : List (Term α ν)) : α :=
  let r := contracted (.single t.lead) (ts.map .single)
  fold ((r.1 :: r.2).map Run.head)

omit [Arithmetic α] in
/-- An addition in front makes no level. -/
theorem levels_cons_of_add {t : Term α ν} (h : t.operator = some .add) (ts : List (Term α ν)) :
    levels (t :: ts) = levels ts := by
  rw [levels, levels, products, operators_cons_of_some h]
  rfl

omit [Arithmetic α] in
/-- An addition at the end makes no level. -/
theorem levels_append_add {y : Term α ν} (hy : y.operator = some .add) (ts : List (Term α ν)) :
    levels (ts ++ [y]) = levels ts := by
  rw [levels, levels, products, products, operators, List.filterMap_append, List.filter_append,
    ← operators, ← operators, operators_cons_of_some hy]
  exact congrArg (fun os : List Operator => os.eraseDups.reverse ++ [.pow]) (List.append_nil _)

/-- It is the sum of the list with its powers and products grouped by levels. -/
theorem contractedSum_eq_groupedSum {t : Term α ν} (hadd : t.lead.operator = some .add)
    (ts : List (Term α ν)) :
    contractedSum t ts = groupedSum (levels (t.lead :: ts)) (t.lead :: ts) := by
  have hfold := fold_contracted (.single t.lead) (ts.map .single)
    (show startsSummand t.lead.operator = true by rw [hadd]; rfl)
  rw [map_head_single] at hfold
  rw [levels_cons_of_add hadd]
  exact hfold

/-- **Behind an addition a reduction is the sum** of the list with its powers and
products grouped by levels. -/
theorem value_reduce_of_leading_add {t u v : Term α ν} {ts : List (Term α ν)}
    (hadd : t.lead.operator = some .add) :
    (reduce (t :: u :: v :: ts)).value
      = some (groupedSum (levels (t.lead :: u :: v :: ts)) (t.lead :: u :: v :: ts)) := by
  rw [reduce_of_leading ((Term.operator_lead_eq_add_iff t).mp hadd),
    ← contractedSum_eq_groupedSum hadd]
  rfl

/-- **A reduction is the sum of a precedence grammar with a dynamic order.** Of
three terms and more the first has to be an addition once it leads, or there is
no value. If it is, powers bind tightest, then the product operators, the one
that occurs first before the next; every level associates to the left; and the
summands, one for each term whose operator is additive or missing, are applied
from left to right, starting from zero. -/
theorem value_reduce_eq_groupedSum (t u v : Term α ν) (ts : List (Term α ν)) :
    let led := t.lead :: u :: v :: ts
    (reduce (t :: u :: v :: ts)).value
      = some (if t.lead.operator = some .add then groupedSum (levels led) led
          else Arithmetic.undefined) := by
  intro led
  by_cases hadd : t.lead.operator = some .add
  · rw [if_pos hadd]
    exact value_reduce_of_leading_add hadd
  · have hleads : 0 < t.lead.precedence :=
      Decidable.not_not.mp fun h => hadd ((Term.operator_lead_eq_add_iff t).mpr h)
    rw [if_neg hadd, reduce_of_not_leading hleads]

end Grouping

end Reckon
