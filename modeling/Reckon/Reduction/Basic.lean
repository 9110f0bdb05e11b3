import Reckon.Term

/-!
# Reducing a scope to its value

A list of terms is reduced by **contraction**: all the terms of one
operator are folded, each into the nearest term on its left that is
still there. Powers are contracted first; then the product operators, one
at a time, in the order in which they first occur; what is left is a sum,
applied from left to right.

A contraction changes the terms it folds into, and the terms folded away
keep the values they had when they went. A `Run` holds both: the term
that is still there and the terms that have gone into it. The runs, laid
end to end, are always the terms of the scope in their order, so
`Reduction.terms` can say what each term was left with.

`contract` fails in one case, a first term of the operator being
contracted. Reduction never gets there: the first term is an addition by
then.
-/

namespace Reckon

/-- **A term still standing**, with the terms that were folded into it. -/
structure Run (α : Type) (ν : Type := Unit) where
  /-- The term that stands. -/
  head : Term α ν
  /-- The terms folded into it, in the order of the scope. -/
  folded : List (Term α ν)
deriving Repr, DecidableEq

/-- Why a contraction fails. -/
inductive ContractError where
  /-- The first term is to be folded, and there is none on its left. -/
  | nothingOnTheLeft
deriving Repr, DecidableEq

/-- What the failure is reported as. -/
def ContractError.message : ContractError → String
  | .nothingOnTheLeft => "list index out of range"

namespace Run

variable {α ν : Type}

/-- A term with nothing folded into it. -/
def single (t : Term α ν) : Run α ν :=
  ⟨t, []⟩

/-- The terms of the scope that the run stands for. -/
def terms (r : Run α ν) : List (Term α ν) :=
  r.head :: r.folded

/-- **Folds the run `r` into the run on its left.** The standing term
takes the value of the step `r` applied to its own. -/
def absorb [Arithmetic α] (left r : Run α ν) : Run α ν where
  head := { left.head with value := some (r.head.apply left.head.number) }
  folded := left.folded ++ r.terms

end Run

section Contraction

variable {α ν : Type} [Arithmetic α]

/-- **Contracts an operator in the runs after a first one.** -/
def contractAfter (o : Option Operator) (left : Run α ν) :
    List (Run α ν) → Run α ν × List (Run α ν)
  | [] => (left, [])
  | r :: rs =>
    if r.head.operator = o then contractAfter o (left.absorb r) rs
    else
      let (next, others) := contractAfter o r rs
      (left, next :: others)

/-- **Contracts an operator**: every term of it goes into the nearest
term on its left that has another one. -/
def contract (o : Option Operator) : List (Run α ν) → Except ContractError (List (Run α ν))
  | [] => .ok []
  | r :: rs =>
    if r.head.operator = o then .error .nothingOnTheLeft
    else
      let (first, others) := contractAfter o r rs
      .ok (first :: others)

/-- **The operator to contract next**: a power if there is one, else the
product operator that comes first. -/
def tightest (ts : List (Term α ν)) : Option Operator :=
  (ofTier 2).or (ofTier 1)
where
  /-- The first operator of one tier. -/
  ofTier (tier : Nat) : Option Operator :=
    ts.findSome? fun t => t.operator.filter (·.precedence == tier)

omit [Arithmetic α] in
/-- The next operator to contract is one of the list. -/
theorem exists_mem_of_tightest {ts : List (Term α ν)} {o : Operator}
    (h : tightest ts = some o) : ∃ t ∈ ts, t.operator = some o := by
  unfold tightest at h
  have key : ∀ tier, tightest.ofTier ts tier = some o → ∃ t ∈ ts, t.operator = some o := by
    intro tier h
    obtain ⟨t, ht, hf⟩ := List.exists_of_findSome?_eq_some h
    exact ⟨t, ht, (Option.filter_eq_some_iff.1 hf).1⟩
  cases h2 : tightest.ofTier ts 2 with
  | some p =>
    rw [h2, Option.some_or] at h
    exact key 2 (h2.trans h)
  | none =>
    rw [h2, Option.none_or] at h
    exact key 1 h

/-- No contraction makes the list longer. -/
theorem length_contractAfter_le (o : Option Operator) (left : Run α ν) (rs : List (Run α ν)) :
    (contractAfter o left rs).2.length ≤ rs.length := by
  induction rs generalizing left with
  | nil => simp [contractAfter]
  | cons r rs ih =>
    rw [contractAfter]
    split
    · exact Nat.le_succ_of_le (ih _)
    · simpa using ih r

/-- **A contraction of an operator that occurs makes the list shorter.** -/
theorem length_contractAfter_lt {o : Option Operator} (left : Run α ν) {rs : List (Run α ν)}
    (h : ∃ r ∈ rs, r.head.operator = o) :
    (contractAfter o left rs).2.length < rs.length := by
  induction rs generalizing left with
  | nil => simp at h
  | cons r rs ih =>
    rw [contractAfter]
    split
    · exact Nat.lt_succ_of_le (length_contractAfter_le ..)
    · rename_i hne
      have : ∃ r ∈ rs, r.head.operator = o := by
        obtain ⟨s, hs, ho⟩ := h
        rcases List.mem_cons.1 hs with rfl | hs
        · exact absurd ho hne
        · exact ⟨s, hs, ho⟩
      simpa using ih r this

/-- **One contraction of a reduction**: the operator and what it left
standing. -/
structure Contraction (α : Type) (ν : Type := Unit) where
  /-- The operator contracted. -/
  operator : Operator
  /-- The first run after it. -/
  first : Run α ν
  /-- The other runs after it. -/
  others : List (Run α ν)

/-- The terms that a contraction left standing. -/
def Contraction.standing (c : Contraction α ν) : List (Term α ν) :=
  (c.first :: c.others).map Run.head

/-- **The contractions of a list**, from the tightest operator on. Each
one removes its operator, so they come to an end. -/
def contractions (first : Run α ν) (others : List (Run α ν)) : List (Contraction α ν) :=
  match _ : tightest (others.map Run.head) with
  | none => []
  | some o =>
    let next := contractAfter o first others
    ⟨o, next.1, next.2⟩ :: contractions next.1 next.2
termination_by others.length
decreasing_by
  rename_i h
  obtain ⟨t, ht, ho⟩ := exists_mem_of_tightest h
  obtain ⟨r, hr, rfl⟩ := List.mem_map.1 ht
  exact length_contractAfter_lt _ ⟨r, hr, ho⟩

/-- The runs that stand when no operator is left to contract. -/
def contracted (first : Run α ν) (others : List (Run α ν)) : Run α ν × List (Run α ν) :=
  match (contractions first others).getLast? with
  | some c => (c.first, c.others)
  | none => (first, others)

/-- **Applies the terms one after the other**, starting from zero. -/
def fold (ts : List (Term α ν)) : α :=
  ts.foldl (fun running t => t.apply running) Arithmetic.zero

end Contraction

/-- **What a reduction gives.** -/
structure Reduction (α : Type) (ν : Type := Unit) where
  /-- The value of the scope. -/
  value : Option α
  /-- The terms of the scope as the reduction leaves them. -/
  terms : List (Term α ν)
deriving Repr, DecidableEq

/-- **Reduces a scope.** No terms have no defined value. A single term is
its own value, whatever its operator, and two terms are applied as they
stand. From three terms on the first must be an addition, and the others
are contracted. -/
def reduce {α ν : Type} [Arithmetic α] : List (Term α ν) → Reduction α ν
  | [] => ⟨some Arithmetic.undefined, []⟩
  | [t] => ⟨t.lead.value, [t.lead]⟩
  | [t, u] => ⟨some (u.apply (t.lead.apply Arithmetic.zero)), [t.lead, u]⟩
  | t :: ts =>
    if 0 < t.lead.precedence then ⟨some Arithmetic.undefined, t.lead :: ts⟩
    else
      let (first, others) := contracted (.single t.lead) (ts.map .single)
      ⟨some (fold ((first :: others).map Run.head)), (first :: others).flatMap Run.terms⟩

end Reckon
