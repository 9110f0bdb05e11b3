import Mathlib.Data.List.Basic
import Mathlib.Data.List.TakeWhile
import Reckon.Proofs.Levels

/-!
# Contracting in place

A contraction is one sweep over the terms of a scope, from left to right. It
keeps the places of the terms it retains, and a term of the operator changes the
last of these where it stands. So the term that a run is folded into changes as
often as the run is long, while the list of places is still growing.

Here is that sweep, over terms that are changed in place (`sweep`), and what it
comes to. The invariant is that the terms swept so far are those of some runs,
laid end to end, and that the places kept are where the runs begin: this is what
`contract` computes on runs (`sweepFrom_eq`). What it leaves can then be told
from the list alone (`swept`), term by term: a term of the operator stays, and
every other one takes in the run that directly follows it.

The one way to fail is a first term of the operator. Nothing has been folded by
then, so nothing has changed.
-/

namespace Reckon

variable {α ν : Type} [Arithmetic α]

/-! ## The sweep -/

/-- **Sweeps over terms from place to place.** The answer is the terms as they
are in the end, and the places kept or the failure. -/
def sweepFrom (o : Option Operator) (terms : List (Term α ν)) (kept : List Nat) :
    List Nat → List (Term α ν) × Except ContractError (List Nat)
  | [] => (terms, .ok kept)
  | i :: is =>
    match terms[i]? with
    | none => sweepFrom o terms kept is
    | some t =>
      if t.operator = o then
        match kept.getLast? with
        | none => (terms, .error .nothingOnTheLeft)
        | some j => sweepFrom o (terms.modify j (·.absorb t)) kept is
      else sweepFrom o terms (kept ++ [i]) is

/-- **Contracts an operator in place.** -/
def sweep (o : Option Operator) (ts : List (Term α ν)) :
    List (Term α ν) × Except ContractError (List Nat) :=
  sweepFrom o ts [] (List.range ts.length)

/-- The terms at some places. -/
def termsAt (ts : List (Term α ν)) (places : List Nat) : List (Term α ν) :=
  places.filterMap (ts[·]?)

/-! ## What a sweep leaves -/

/-- **The term with a run taken in**: its value is that of the run, applied from
left to right, and without a run it stays as it is. -/
def Term.takeIn (t : Term α ν) : List (Term α ν) → Term α ν
  | [] => t
  | u :: us => { t with value := some ((u :: us).foldl (fun v w => w.apply v) t.number) }

/-- The terms of an operator that a list begins with. -/
def leadingRun (o : Option Operator) (ts : List (Term α ν)) : List (Term α ν) :=
  ts.takeWhile fun u => decide (u.operator = o)

/-- **What each term is left with** when an operator is contracted. -/
def swept (o : Option Operator) : List (Term α ν) → List (Term α ν)
  | [] => []
  | t :: ts => (if t.operator = o then t else t.takeIn (leadingRun o ts)) :: swept o ts

/-- The places where runs begin, the first of them at `n`. -/
def starts (n : Nat) : List (Run α ν) → List Nat
  | [] => []
  | r :: rs => n :: starts (n + r.terms.length) rs

section Runs

variable {o : Option Operator} {t : Term α ν} {ts : List (Term α ν)}

/-- Taking the terms of a run in one by one is taking in the run. -/
theorem foldl_absorb_eq_takeIn (run : List (Term α ν)) (t : Term α ν) :
    run.foldl Term.absorb t = t.takeIn run := by
  have hvalue (us : List (Term α ν)) (x : α) :
      us.foldl Term.absorb { t with value := some x }
        = { t with value := some (us.foldl (fun v w => w.apply v) x) } := by
    induction us generalizing x with
    | nil => rfl
    | cons u us ih => exact ih (u.apply x)
  cases run with
  | nil => rfl
  | cons u us => exact hvalue us (u.apply t.number)

theorem operator_takeIn (t : Term α ν) (run : List (Term α ν)) :
    (t.takeIn run).operator = t.operator := by
  cases run <;> rfl

theorem node_takeIn (t : Term α ν) (run : List (Term α ν)) :
    (t.takeIn run).node = t.node := by
  cases run <;> rfl

omit [Arithmetic α] in
theorem leadingRun_cons_of_eq (h : t.operator = o) :
    leadingRun o (t :: ts) = t :: leadingRun o ts :=
  List.takeWhile_cons_of_pos (decide_eq_true h)

omit [Arithmetic α] in
theorem leadingRun_cons_of_ne (h : t.operator ≠ o) : leadingRun o (t :: ts) = [] :=
  List.takeWhile_cons_of_neg (by simpa using h)

theorem getElem?_swept (o : Option Operator) (ts : List (Term α ν)) (i : Nat) :
    (swept o ts)[i]? = ts[i]?.map fun t =>
      if t.operator = o then t else t.takeIn (leadingRun o (ts.drop (i + 1))) := by
  induction ts generalizing i with
  | nil => rfl
  | cons t ts ih =>
    cases i with
    | zero => rfl
    | succ i => exact ih i

/-- What every term keeps, the list keeps. -/
theorem map_swept {β : Type} (f : Term α ν → β) (hf : ∀ (t : Term α ν) run, f (t.takeIn run) = f t)
    (o : Option Operator) (ts : List (Term α ν)) : (swept o ts).map f = ts.map f := by
  refine List.ext_getElem? fun i => ?_
  rw [List.getElem?_map, getElem?_swept, List.getElem?_map, Option.map_map]
  refine congrArg (Option.map · ts[i]?) (funext fun t => ?_)
  show f (ite _ _ _) = f t
  rw [apply_ite f, hf, ite_self]

/-- **A contraction of terms leaves each of them as it was swept**, behind the run
on its left. -/
theorem terms_contractAfter_single (left : Run α ν) (ts : List (Term α ν)) :
    let r := contractAfter o left (ts.map .single)
    (r.1 :: r.2).flatMap Run.terms
      = left.head.takeIn (leadingRun o ts) :: left.folded ++ swept o ts := by
  induction ts generalizing left with
  | nil => rfl
  | cons t ts ih =>
    rw [List.map_cons, contractAfter]
    by_cases h : t.operator = o
    · have hhead : (left.absorb (.single t)).head.takeIn (leadingRun o ts)
          = left.head.takeIn (leadingRun o (t :: ts)) := by
        rw [← foldl_absorb_eq_takeIn, ← foldl_absorb_eq_takeIn, leadingRun_cons_of_eq h]
        rfl
      rw [if_pos (show (Run.single t).head.operator = o from h)]
      refine (ih (left.absorb (.single t))).trans ?_
      rw [hhead, swept, if_pos h]
      show _ :: (left.folded ++ [t]) ++ _ = _
      rw [List.cons_append, List.append_assoc, List.cons_append]
      rfl
    · rw [if_neg (show (Run.single t).head.operator ≠ o from h), leadingRun_cons_of_ne h,
        swept, if_neg h]
      exact congrArg (left.terms ++ ·) (ih (.single t))

/-- The runs begin at the terms of other operators. -/
theorem starts_contractAfter_single (n : Nat) (left : Run α ν) (ts : List (Term α ν)) :
    let r := contractAfter o left (ts.map .single)
    starts n (r.1 :: r.2)
      = n :: ts.findIdxs (fun t => decide (t.operator ≠ o)) (n + left.terms.length) := by
  induction ts generalizing n left with
  | nil => rfl
  | cons t ts ih =>
    rw [List.map_cons, contractAfter, List.findIdxs_cons]
    by_cases h : t.operator = o
    · have hlength : (left.absorb (.single t)).terms.length = left.terms.length + 1 := by
        simp [Run.absorb, Run.terms, Run.single]
      rw [if_pos (show (Run.single t).head.operator = o from h), if_neg (by simpa using h)]
      refine (ih n (left.absorb (.single t))).trans ?_
      rw [hlength, Nat.add_assoc]
    · rw [if_neg (show (Run.single t).head.operator ≠ o from h), if_pos (by simpa using h)]
      exact congrArg (n :: ·) (ih (n + left.terms.length) (.single t))

omit [Arithmetic α] in
/-- The terms where runs begin are their heads. -/
theorem termsAt_starts (done : List (Term α ν)) (rs : List (Run α ν)) :
    termsAt (done ++ rs.flatMap Run.terms) (starts done.length rs) = rs.map Run.head := by
  induction rs generalizing done with
  | nil => rfl
  | cons r rs ih =>
    have hhead : (done ++ (r :: rs).flatMap Run.terms)[done.length]? = some r.head := by
      rw [List.getElem?_append_right (Nat.le_refl _), Nat.sub_self]
      rfl
    rw [starts, termsAt, List.filterMap_cons_some hhead, ← List.length_append, List.flatMap_cons,
      ← List.append_assoc]
    exact congrArg (r.head :: ·) (ih (done ++ r.terms))

/-! ## The sweep and the contraction -/

/-- **A sweep contracts the runs that it has met.** In front of the place that it
has come to are runs that will not change any more, and the run that takes in the
next terms. -/
theorem sweepFrom_eq (o : Option Operator) (done : List (Term α ν)) (kept : List Nat)
    (left : Run α ν) (ts : List (Term α ν)) :
    let r := contractAfter o left (ts.map .single)
    sweepFrom o (done ++ (left.terms ++ ts)) (kept ++ [done.length])
        (List.range' (done.length + left.terms.length) ts.length)
      = (done ++ (r.1 :: r.2).flatMap Run.terms,
          .ok (kept ++ starts done.length (r.1 :: r.2))) := by
  induction ts generalizing done kept left with
  | nil => rfl
  | cons t ts ih =>
    have hnext : (done ++ (left.terms ++ t :: ts))[done.length + left.terms.length]? = some t := by
      rw [← List.append_assoc, ← List.length_append, List.getElem?_append_right (Nat.le_refl _),
        Nat.sub_self]
      rfl
    rw [List.length_cons, List.range'_succ, sweepFrom, hnext, List.map_cons, contractAfter]
    dsimp only
    by_cases h : t.operator = o
    · -- The last term kept changes where it stands.
      have hchanged : (done ++ (left.terms ++ t :: ts)).modify done.length (·.absorb t)
          = done ++ ((left.absorb (.single t)).terms ++ ts) := by
        rw [List.modify_eq_set_getElem?, List.getElem?_append_right (Nat.le_refl _), Nat.sub_self]
        show (done ++ left.head :: (left.folded ++ t :: ts)).set done.length (left.head.absorb t) = _
        rw [List.set_append_right _ _ (Nat.le_refl _), Nat.sub_self, List.set_cons_zero]
        show done ++ left.head.absorb t :: (left.folded ++ t :: ts)
          = done ++ (left.head.absorb t :: (left.folded ++ [t]) ++ ts)
        rw [List.cons_append, List.append_assoc]
        rfl
      have hlength : (left.absorb (.single t)).terms.length = left.terms.length + 1 := by
        simp [Run.absorb, Run.terms, Run.single]
      rw [if_pos h, List.getLast?_concat, if_pos (show (Run.single t).head.operator = o from h)]
      dsimp only
      rw [hchanged, Nat.add_assoc, ← hlength]
      exact ih done kept (left.absorb (.single t))
    · -- The place is kept, and the run in front of it is complete.
      rw [if_neg h, if_neg (show (Run.single t).head.operator ≠ o from h)]
      have hrest := ih (done ++ left.terms) (kept ++ [done.length]) (.single t)
      rw [List.length_append, List.append_assoc] at hrest
      refine hrest.trans ?_
      simp only [List.flatMap_cons, List.append_assoc]
      rfl

end Runs

/-! ## What a contraction comes to -/

/-- **What contracting an operator in place leaves** of terms, and which of them it
keeps. -/
structure IsSweepOf (o : Option Operator) (ts left : List (Term α ν)) (kept : List Nat) :
    Prop where
  /-- The terms of other operators are kept, all of them and in order. -/
  kept_eq : kept = ts.findIdxs fun t : Term α ν => decide (t.operator ≠ o)
  /-- Every term keeps its operator. -/
  operators_eq : left.map Term.operator = ts.map Term.operator
  /-- Every term keeps its node. -/
  node_eq : left.map Term.node = ts.map Term.node
  /-- A term that is folded keeps its value. -/
  folded_eq : ∀ (i : Nat) (t : Term α ν), ts[i]? = some t → t.operator = o → left[i]? = some t
  /-- A term that is kept stays as it is if the operator does not follow. -/
  untouched : ∀ (i : Nat) (t : Term α ν), ts[i]? = some t → t.operator ≠ o →
    leadingRun o (ts.drop (i + 1)) = [] → left[i]? = some t
  /-- Otherwise its value is that of the terms of the operator that follow, applied
  from left to right to the value it had. -/
  takes_in : ∀ (i : Nat) (t : Term α ν), ts[i]? = some t → t.operator ≠ o →
    leadingRun o (ts.drop (i + 1)) ≠ [] → left[i]? = some
      { t with value := some ((leadingRun o (ts.drop (i + 1))).foldl (fun v u => u.apply v) t.number) }
  /-- Contracting the operator again in what is kept keeps everything and changes
  nothing. -/
  again : sweep o (termsAt left kept) = (termsAt left kept, .ok (List.range kept.length))

section Outcome

variable {o : Option Operator} {t : Term α ν} {ts : List (Term α ν)}

/-- A sweep from a first term on that is kept. -/
theorem sweep_cons_of_ne (h : t.operator ≠ o) :
    let r := contractAfter o (.single t) (ts.map .single)
    sweep o (t :: ts) = ((r.1 :: r.2).flatMap Run.terms, .ok (starts 0 (r.1 :: r.2))) := by
  have hrange : List.range (t :: ts).length = 0 :: List.range' 1 ts.length := by
    rw [List.length_cons, List.range_eq_range', List.range'_succ]
  rw [sweep, hrange, sweepFrom]
  show (if t.operator = o then _ else _) = _
  rw [if_neg h]
  exact sweepFrom_eq o [] [] (.single t) ts

/-- **Where the operator does not occur a sweep changes nothing.** -/
theorem sweep_of_forall_ne (h : ∀ t ∈ ts, t.operator ≠ o) :
    sweep o ts = (ts, .ok (List.range ts.length)) := by
  have hfrom (is kept : List Nat) (his : ∀ i ∈ is, i < ts.length) :
      sweepFrom o ts kept is = (ts, .ok (kept ++ is)) := by
    induction is generalizing kept with
    | nil => rw [sweepFrom, List.append_nil]
    | cons i is ih =>
      have hi := his i List.mem_cons_self
      rw [sweepFrom, List.getElem?_eq_getElem hi]
      show (if ts[i].operator = o then _ else _) = _
      rw [if_neg (h _ (List.getElem_mem hi)),
        ih _ fun j hj => his j (List.mem_cons_of_mem i hj), List.append_assoc]
      rfl
  exact hfrom _ [] fun i hi => List.mem_range.mp hi

/-- No run that a contraction leaves standing is of its operator. -/
theorem operator_ne_of_mem_contractAfter (left : Run α ν) (rs : List (Run α ν))
    (hleft : left.head.operator ≠ o) :
    ∀ r ∈ (contractAfter o left rs).1 :: (contractAfter o left rs).2, r.head.operator ≠ o := by
  induction rs generalizing left with
  | nil => exact List.forall_mem_singleton.mpr hleft
  | cons r rs ih =>
    rw [contractAfter]
    by_cases h : r.head.operator = o
    · rw [if_pos h]
      exact ih (left.absorb r) hleft
    · rw [if_neg h]
      exact List.forall_mem_cons.mpr ⟨hleft, ih r h⟩

/-- Where its operator does not occur a contraction leaves every run. -/
theorem contract_of_forall_ne {rs : List (Run α ν)} (h : ∀ r ∈ rs, r.head.operator ≠ o) :
    contract o rs = .ok rs := by
  have hafter (left : Run α ν) (rs : List (Run α ν)) (h : ∀ r ∈ rs, r.head.operator ≠ o) :
      contractAfter o left rs = (left, rs) := by
    induction rs generalizing left with
    | nil => rfl
    | cons r rs ih =>
      obtain ⟨hr, hrs⟩ := List.forall_mem_cons.mp h
      rw [contractAfter, if_neg hr, ih r hrs]
  cases rs with
  | nil => rfl
  | cons r rs =>
    obtain ⟨hr, hrs⟩ := List.forall_mem_cons.mp h
    rw [contract, if_neg hr, hafter r rs hrs]

omit [Arithmetic α] in
theorem length_starts (n : Nat) (rs : List (Run α ν)) : (starts n rs).length = rs.length := by
  induction rs generalizing n with
  | nil => rfl
  | cons r rs ih => exact congrArg Nat.succ (ih _)

/-- **A sweep from a first term of another operator on** keeps the terms that are
not of the operator, each with the run that follows it taken in. -/
theorem isSweepOf_cons (h : t.operator ≠ o) :
    let r := contractAfter o (.single t) (ts.map .single)
    IsSweepOf o (t :: ts) ((r.1 :: r.2).flatMap Run.terms) (starts 0 (r.1 :: r.2)) := by
  intro r
  have hterms : (r.1 :: r.2).flatMap Run.terms = swept o (t :: ts) := by
    rw [swept, if_neg h]
    exact terms_contractAfter_single (.single t) ts
  have hheads : termsAt ((r.1 :: r.2).flatMap Run.terms) (starts 0 (r.1 :: r.2))
      = (r.1 :: r.2).map Run.head :=
    termsAt_starts [] (r.1 :: r.2)
  have hleft (i : Nat) (u : Term α ν) (hu : (t :: ts)[i]? = some u) :
      ((r.1 :: r.2).flatMap Run.terms)[i]? = some
        (if u.operator = o then u else u.takeIn (leadingRun o ((t :: ts).drop (i + 1)))) := by
    rw [hterms, getElem?_swept, hu, Option.map_some]
  refine ⟨?_, ?_, ?_, fun i u hu huo => ?_, fun i u hu huo hrun => ?_, fun i u hu huo hrun => ?_, ?_⟩
  · rw [starts_contractAfter_single, List.findIdxs_cons, if_pos (by simpa using h)]
    rfl
  · rw [hterms, map_swept Term.operator operator_takeIn]
  · rw [hterms, map_swept Term.node node_takeIn]
  · rw [hleft i u hu, if_pos huo]
  · rw [hleft i u hu, if_neg huo, hrun]
    rfl
  · rw [hleft i u hu, if_neg huo]
    cases hcons : leadingRun o ((t :: ts).drop (i + 1)) with
    | nil => exact absurd hcons hrun
    | cons w ws => rfl
  · rw [hheads, length_starts, sweep_of_forall_ne, List.length_map]
    exact List.forall_mem_map.mpr
      (operator_ne_of_mem_contractAfter (.single t) (ts.map .single) h)

end Outcome

/-- **A contraction folds runs into the term on their left.** If the first term is
of the operator it fails, and every term is as it was. Otherwise it keeps exactly
the terms of other operators, in their order and where they stand; each of these
is left with its value and the terms of the operator that directly follow, applied
from left to right; and nothing else changes. Contracting the operator a second
time keeps and changes nothing more.

The places kept and the terms in the end are those of the runs that `contract`
gives. -/
theorem contract_outcome (o : Option Operator) (ts : List (Term α ν)) :
    (∃ t us, ts = t :: us ∧ t.operator = o
        ∧ contract o (ts.map .single) = .error .nothingOnTheLeft
        ∧ sweep o ts = (ts, .error .nothingOnTheLeft))
      ∨ ((∀ t, ts.head? = some t → t.operator ≠ o) ∧ ∃ rs left kept,
        contract o (ts.map .single) = .ok rs ∧ sweep o ts = (left, .ok kept)
          ∧ rs.flatMap Run.terms = left ∧ rs.map Run.head = termsAt left kept
          ∧ IsSweepOf o ts left kept ∧ contract o rs = .ok rs) := by
  cases ts with
  | nil =>
    refine .inr ⟨nofun, [], [], [], rfl, rfl, rfl, rfl, ?_, rfl⟩
    exact ⟨rfl, rfl, rfl, nofun, nofun, nofun, rfl⟩
  | cons t ts =>
    by_cases h : t.operator = o
    · refine .inl ⟨t, ts, rfl, h, if_pos h, ?_⟩
      rw [sweep, List.length_cons, List.range_eq_range', List.range'_succ, sweepFrom]
      exact if_pos h
    · have hfirst : ∀ u, (t :: ts).head? = some u → u.operator ≠ o := fun u hu =>
        Option.some.inj hu ▸ h
      refine .inr ⟨hfirst, _, _, _, if_neg h, sweep_cons_of_ne h, rfl, ?_, isSweepOf_cons h, ?_⟩
      · exact (termsAt_starts [] _).symm
      · exact contract_of_forall_ne (operator_ne_of_mem_contractAfter (.single t) _ h)

end Reckon
