import Reckon.Outcome
import Reckon.Session
import Reckon.Proofs.Homomorphism
import Reckon.Proofs.Levels
import Reckon.Proofs.Primitives
import Reckon.Proofs.Strict

/-!
# Evaluation never fails

The evaluator is a total function, and some of what makes it total is not to be
seen in it: where the last term of a list is taken, an operator is read off a
character, or an attribute of an operator is asked for, nothing says what
happens if there is none. Here is the same evaluator with every such place
spelled out. It runs on operations that can raise (`Primitives`), and each
place that could fail has a `Fault` of its own.

No fault is ever reached, and each for its own reason. The first term of a
contraction is an addition and stays, so there is always a term on the left
(`Primitives.contract_eq`). The term that binds tightest has an operator,
because the first one has (`highest?_of_tightest`, `highest?_of_none`). An
operator is read only where a character of an operator was seen
(`Pass.checkedTake_eq`). And what an operation raises is answered for by its
operator (`Primitives.apply_eq`).

So the checked evaluator answers what the evaluator does, for a text, and from
every state of a session, whatever steps have led there.
-/

namespace Reckon

/-- **Why an evaluation would stop short.** -/
inductive Fault where
  /-- An error of an operation that nobody answers for. -/
  | raised (t : Trap)
  /-- A term is to be folded to the left, and there is none. -/
  | nothingOnTheLeft
  /-- A term is asked for in a list without one. -/
  | noTerm
  /-- A missing operator is asked for its tier or its symbol. -/
  | noOperator
  /-- An operator is read off a character that writes none. -/
  | notAnOperator (c : Option Char)
  /-- A contraction leaves the list as it was, and is made again and again. -/
  | endless
deriving Repr, DecidableEq

/-- **The term that binds tightest**, the first of them if there are several. -/
def highest? {α ν : Type} (ts : List (Term α ν)) : Option (Term α ν) :=
  ts.find? fun t => ts.all fun u => decide (u.precedence ≤ t.precedence)

section Highest

variable {α ν : Type} {t : Term α ν} {ts : List (Term α ν)} {o : Operator}

/-- The first operator of a tier belongs to the first term of it. -/
theorem exists_find?_of_ofTier {tier : Nat} (h : tightest.ofTier ts tier = some o) :
    ∃ u, ts.find? (fun u => u.precedence == (tier : Int)) = some u ∧ u.operator = some o := by
  induction ts with
  | nil => cases h
  | cons u us ih =>
    have hprecedence : (u.precedence == (tier : Int))
        = (u.operator.filter fun q => q.precedence == tier).isSome := by
      obtain ⟨_ | q, v, g⟩ := u
      · exact beq_eq_false_iff_ne.mpr (by simp [Term.precedence])
      · by_cases hq : q.precedence = tier
        · simp [Term.precedence, hq]
        · simp [Term.precedence, hq]
    rw [tightest.ofTier, List.findSome?_cons] at h
    rw [List.find?_cons, hprecedence]
    cases hu : u.operator.filter fun q => q.precedence == tier with
    | none =>
      rw [hu] at h
      exact ih h
    | some q =>
      rw [hu] at h
      obtain rfl : q = o := Option.some.inj h
      exact ⟨u, rfl, (Option.filter_eq_some_iff.mp hu).1⟩

/-- The first term of a tier is the tightest, if no term is of a higher one. -/
theorem highest?_of_find? {tier : Nat} {u : Term α ν} (htier : 0 < tier)
    (ht : t.operator = some .add) (hmax : ∀ w ∈ ts, w.precedence ≤ tier)
    (hu : ts.find? (fun u => u.precedence == (tier : Int)) = some u) :
    highest? (t :: ts) = some u := by
  have hzero : t.precedence = 0 := by rw [Term.precedence, ht]; rfl
  rw [List.find?_eq_some_iff_append] at hu
  obtain ⟨htop, front, back, rfl, hfront⟩ := hu
  rw [beq_iff_eq] at htop
  rw [highest?, List.find?_eq_some_iff_append]
  refine ⟨List.all_eq_true.mpr fun w hw => decide_eq_true ?_, t :: front, back, rfl, ?_⟩
  · rcases List.mem_cons.mp hw with rfl | hw
    · omega
    · exact htop ▸ hmax w hw
  · -- Whatever comes before the term is exceeded by it.
    intro w hw
    rw [Bool.not_eq_true', List.all_eq_false]
    refine ⟨u, by simp, ?_⟩
    rw [decide_eq_true_eq, Int.not_le, htop]
    rcases List.mem_cons.mp hw with rfl | hw
    · omega
    · have hne := hfront w hw
      rw [Bool.not_eq_true', beq_eq_false_iff_ne] at hne
      exact Int.lt_iff_le_and_ne.mpr ⟨hmax w (List.mem_append_left _ hw), hne⟩

/-- With an operator to contract, the tightest term is one of it. -/
theorem highest?_of_tightest (ht : t.operator = some .add) (h : tightest ts = some o) :
    ∃ u, highest? (t :: ts) = some u ∧ u.operator = some o := by
  have htwo : ∀ w : Term α ν, w.precedence ≤ 2 := by
    rintro ⟨_ | q, v, g⟩
    · exact (by decide : (-1 : Int) ≤ 2)
    · cases q with
      | add | sub | mul | div | mod | pow => simp [Term.precedence, Operator.precedence]
  unfold tightest at h
  cases hpow : tightest.ofTier ts 2 with
  | some q =>
    rw [hpow, Option.some_or] at h
    obtain ⟨u, hu, ho⟩ := exists_find?_of_ofTier (hpow.trans h)
    exact ⟨u, highest?_of_find? (by decide) ht (fun w _ => htwo w) hu, ho⟩
  | none =>
    rw [hpow, Option.none_or] at h
    obtain ⟨u, hu, ho⟩ := exists_find?_of_ofTier h
    refine ⟨u, highest?_of_find? (by decide) ht (fun w hw => ?_) hu, ho⟩
    -- No term is of the second tier, so none is above the first.
    rw [tightest.ofTier, List.findSome?_eq_none_iff] at hpow
    have hw := hpow w hw
    obtain ⟨_ | q, v, g⟩ := w
    · exact (by decide : (-1 : Int) ≤ 1)
    · cases q with
      | pow => exact absurd hw (Option.some_ne_none Operator.pow)
      | add | sub | mul | div | mod => simp [Term.precedence, Operator.precedence]

/-- With no operator to contract, the first term is the tightest. -/
theorem highest?_of_none (ht : t.operator = some .add) (h : tightest ts = none) :
    highest? (t :: ts) = some t := by
  have hzero : t.precedence = 0 := by rw [Term.precedence, ht]; rfl
  refine List.find?_cons_of_pos ?_
  rw [List.all_eq_true]
  intro u hu
  rw [decide_eq_true_eq, hzero]
  rcases List.mem_cons.mp hu with rfl | hu
  · exact Int.le_of_eq hzero
  · have hstarts := startsSummand_of_tightest_eq_none h u hu
    obtain ⟨_ | q, v, g⟩ := u
    · exact (by decide : (-1 : Int) ≤ 0)
    · have hq : q.precedence = 0 := beq_iff_eq.mp hstarts
      exact Int.le_of_eq (congrArg Nat.cast hq)

end Highest

namespace Primitives

variable (P : Primitives)

/-! ## Reductions -/

/-- Applies a step to a running value. -/
def applyTerm (t : Term P.Guarded) (running : P.Guarded) : Except Fault P.Guarded :=
  match t.operator, t.value with
  | some o, some v => (P.apply o running v).mapError .raised
  | _, _ => .ok Arithmetic.undefined

/-- **Folds an operator's terms to the left.** The terms that have been kept are
at hand, and the last of them takes the next one in. -/
def contract (o : Operator) (kept : List (Run P.Guarded)) :
    List (Run P.Guarded) → Except Fault (List (Run P.Guarded))
  | [] => .ok kept
  | r :: rs =>
    if r.head.operator = some o then
      match kept.getLast? with
      | none => .error .nothingOnTheLeft
      | some left => do
        let v ← P.applyTerm r.head left.head.number
        contract o (kept.dropLast ++ [⟨{ left.head with value := some v }, left.folded ++ r.terms⟩])
          rs
    else contract o (kept ++ [r]) rs

/-- Applies the terms one after the other, starting from zero. -/
def sum (ts : List (Term P.Guarded)) : Except Fault P.Guarded :=
  ts.foldlM (fun running t => P.applyTerm t running) Arithmetic.zero

/-- **Contracts until a sum is left**, and gives its value and the runs that
stand then. -/
def contractAll : List (Run P.Guarded) → Except Fault (P.Guarded × List (Run P.Guarded))
  | [] => .error .noTerm
  | [r] => return (← P.applyTerm r.head Arithmetic.zero, [r])
  | r :: s :: rs =>
    match highest? ((r :: s :: rs).map Run.head) with
    | none => .error .noTerm
    | some t =>
      match t.operator with
      | none => .error .noOperator
      | some o =>
        if o.precedence = 0 then
          return (← P.sum ((r :: s :: rs).map Run.head), r :: s :: rs)
        else
          match P.contract o [] (r :: s :: rs) with
          | .error f => .error f
          | .ok next =>
            if next.length < (r :: s :: rs).length then contractAll next else .error .endless
termination_by rs => rs.length
decreasing_by
  rename_i h
  exact h

/-- **Reduces a scope.** -/
def reduce : List (Term P.Guarded) → Except Fault (Reduction P.Guarded)
  | [] => .ok ⟨some Arithmetic.undefined, []⟩
  | [t] => .ok ⟨t.lead.value, [t.lead]⟩
  | [t, u] => return ⟨some (← P.applyTerm u (← P.applyTerm t.lead Arithmetic.zero)), [t.lead, u]⟩
  | t :: u :: v :: ts =>
    if 0 < t.lead.precedence then
      match t.lead.operator with
      | none => .error .noOperator
      | some _ => .ok ⟨some Arithmetic.undefined, t.lead :: u :: v :: ts⟩
    else do
      let (value, runs) ← P.contractAll (.single t.lead :: (u :: v :: ts).map .single)
      return ⟨some value, runs.flatMap Run.terms⟩

theorem applyTerm_eq (t : Term P.Guarded) (running : P.Guarded) :
    P.applyTerm t running = .ok (t.apply running) := by
  obtain ⟨_ | o, _ | v, g⟩ := t
  · rfl
  · rfl
  · rfl
  · show (P.apply o running v).mapError Fault.raised = _
    rw [P.apply_eq]
    rfl

/-- **There is always a term on the left**, once one has been kept. -/
theorem contract_eq (o : Operator) (kept : List (Run P.Guarded)) (left : Run P.Guarded)
    (rs : List (Run P.Guarded)) :
    P.contract o (kept ++ [left]) rs
      = .ok (kept ++ (contractAfter (some o) left rs).1 :: (contractAfter (some o) left rs).2) := by
  induction rs generalizing kept left with
  | nil => rfl
  | cons r rs ih =>
    rw [contract, contractAfter]
    by_cases h : r.head.operator = some o
    · rw [if_pos h, if_pos h, List.getLast?_concat, List.dropLast_concat]
      show (do let v ← P.applyTerm r.head left.head.number; _) = _
      rw [P.applyTerm_eq]
      exact ih kept (left.absorb r)
    · rw [if_neg h, if_neg h, ih, List.append_assoc]
      rfl

theorem sum_eq (ts : List (Term P.Guarded)) : P.sum ts = .ok (fold ts) := by
  have hfoldl (v : P.Guarded) :
      ts.foldlM (fun running t => P.applyTerm t running) v
        = .ok (ts.foldl (fun running t => t.apply running) v) := by
    induction ts generalizing v with
    | nil => rfl
    | cons t ts ih =>
      rw [List.foldlM_cons, P.applyTerm_eq]
      exact ih (t.apply v)
  exact hfoldl _

/-- **Contracting from an addition on comes to an end**, and each contraction
finds an operator and a term on the left. -/
theorem contractAll_eq (first : Run P.Guarded) (others : List (Run P.Guarded))
    (hfirst : first.head.operator = some .add) :
    P.contractAll (first :: others)
      = .ok (fold (((contracted first others).1 :: (contracted first others).2).map Run.head),
          (contracted first others).1 :: (contracted first others).2) := by
  induction first, others using contracted_induction with
  | done first others hnone =>
    rw [contracted_of_none hnone]
    cases others with
    | nil =>
      rw [contractAll, P.applyTerm_eq]
      rfl
    | cons s rs =>
      have hhighest : highest? ((first :: s :: rs).map Run.head) = some first.head :=
        highest?_of_none hfirst hnone
      rw [contractAll, hhighest]
      dsimp only
      rw [hfirst]
      dsimp only
      rw [if_pos (show Operator.add.precedence = 0 from rfl), P.sum_eq]
      rfl
  | contract first others o hsome ih =>
    have hpositive : o.precedence ≠ 0 := by
      rcases tightest_cases hsome with rfl | ⟨_, os, hos⟩
      · decide
      · have hmem : o ∈ (operators (others.map Run.head)).filter fun q => q.precedence == 1 :=
          hos ▸ List.mem_cons_self
        have hone := beq_iff_eq.mp (List.mem_filter.mp hmem).2
        omega
    have hadd : some Operator.add ≠ some o := by
      rintro h
      exact hpositive (Option.some.inj h ▸ rfl)
    obtain ⟨t, ht, hto⟩ := exists_mem_of_tightest hsome
    obtain ⟨r, hr, rfl⟩ := List.mem_map.mp ht
    have hshorter : ((contractAfter (some o) first others).1
          :: (contractAfter (some o) first others).2).length < (first :: others).length :=
      Nat.succ_lt_succ (length_contractAfter_lt first ⟨r, hr, hto⟩)
    have hcontract : P.contract o [] (first :: others)
        = .ok ((contractAfter (some o) first others).1
          :: (contractAfter (some o) first others).2) := by
      rw [contract, if_neg (hfirst ▸ hadd)]
      exact P.contract_eq o [] first others
    have hkept : (contractAfter (some o) first others).1.head.operator = some .add := by
      have hheads := heads_contractAfter o first others
      rw [← hfirst, ← operator_head_fuse o first.head (others.map Run.head), hheads]
    obtain ⟨u, hu, huo⟩ := highest?_of_tightest hfirst hsome
    cases others with
    | nil => cases hr
    | cons s rs =>
      rw [contractAll, List.map_cons, hu]
      dsimp only
      rw [huo]
      dsimp only
      rw [if_neg hpositive, hcontract]
      dsimp only
      rw [if_pos hshorter, ih hkept, contracted_of_some hsome]

/-- **No fault is met in a reduction.** -/
theorem reduce_eq (ts : List (Term P.Guarded)) : P.reduce ts = .ok (Reckon.reduce ts) := by
  match ts with
  | [] => rfl
  | [t] => rfl
  | [t, u] =>
    rw [reduce, P.applyTerm_eq]
    show (do let v ← P.applyTerm u _; _) = _
    rw [P.applyTerm_eq]
    rfl
  | t :: u :: v :: ts =>
    rw [reduce]
    by_cases hadd : t.lead.operator = some .add
    · have hleads := (Term.operator_lead_eq_add_iff t).mp hadd
      rw [if_neg hleads, reduce_of_leading hleads, P.contractAll_eq _ _ hadd]
      rfl
    · have hleads : 0 < t.lead.precedence :=
        Decidable.not_not.mp fun h => hadd ((Term.operator_lead_eq_add_iff t).mpr h)
      rw [if_pos hleads, reduce_of_not_leading hleads]
      cases ho : t.lead.operator with
      | none => exact absurd (ho ▸ t.isSome_operator_lead) (by decide)
      | some o => rfl

end Primitives

/-! ## Scans -/

/-- Does the character write an operator? -/
def isOperatorChar (c : Char) : Bool :=
  Operator.all.any (·.symbol == c)

/-- The operator that the next character writes. -/
def operatorAt (c : Cursor) : Except Fault Operator :=
  match c.nextChar?.bind Operator.ofChar? with
  | some o => .ok o
  | none => .error (.notAnOperator c.nextChar?)

/-- **What the pass takes at a cursor** that is past the spaces. -/
def Pass.checkedTake (closesGroup : Bool) (c : Cursor) : Except Fault Pass :=
  if c.peek (· == '(') then .ok (.opened .add (c.skip 1))
  else if c.peek isOperatorChar then return .operand (← operatorAt c) (c.skip 1)
  else if c.peek isNumeric then .ok (.literal .add (Literal.read c).1 (Literal.read c).2)
  else if c.peek (· == ')') && closesGroup then .ok (.closed (c.skip 1))
  else .ok (.blank c)

theorem isOperatorChar_eq (c : Char) : isOperatorChar c = (Operator.ofChar? c).isSome := by
  rw [Bool.eq_iff_iff, isOperatorChar, List.any_eq_true, Operator.ofChar?, List.find?_isSome]

/-- **An operator is read only where one is written.** -/
theorem Pass.checkedTake_eq (closesGroup : Bool) (c : Cursor) :
    Pass.checkedTake closesGroup c = .ok (.take closesGroup c) := by
  unfold checkedTake take operatorAt
  cases hc : c.nextChar? with
  | none =>
    have hpeek (p : Char → Bool) : c.peek p = false := by rw [Cursor.peek, hc]; rfl
    simp only [hpeek, Bool.false_and, Bool.false_eq_true, if_false]
  | some x =>
    simp only [Cursor.peek_eq hc, isOperatorChar_eq]
    by_cases hopen : (x == '(') = true
    · rw [if_pos hopen, if_pos hopen]
    · rw [if_neg hopen, if_neg hopen, Option.bind_some]
      cases Operator.ofChar? x with
      | some o => rfl
      | none =>
        rw [Option.isSome_none, if_neg Bool.false_ne_true]
        dsimp only
        split
        · rfl
        · split <;> rfl

/-- **One pass of a scan.** -/
def Scope.checkedPass {α : Type} (s : Scope α) (c : Cursor) : Except Fault Pass :=
  if !c.hasMore then .ok .ended
  else if !s.grown then .ok .stalled
  else Pass.checkedTake s.closesGroup (skipSpaces c)

theorem Scope.checkedPass_eq {α : Type} (s : Scope α) (c : Cursor) :
    s.checkedPass c = .ok (s.pass c) := by
  unfold checkedPass pass
  split
  · rfl
  · split
    · rfl
    · exact Pass.checkedTake_eq ..

namespace Primitives

variable (P : Primitives)

/-- **Scans a scope** until it stops. -/
def scan (s : Scope P.Guarded) (c : Cursor) : Except Fault (Scan P.Guarded) :=
  match _ : s.checkedPass c with
  | .error f => .error f
  | .ok .ended => .ok ⟨.ended, s, c⟩
  | .ok .stalled => .ok ⟨.stalled, s, c⟩
  | .ok (.closed d) => .ok ⟨.closed, { s with closed := true, grown := false }, d⟩
  | .ok (.opened o d) => .ok ⟨.opened, { s with pending := some o, grown := false }, d⟩
  | .ok (.literal o l d) =>
    match P.literal l with
    | .error t => .error (.raised t)
    | .ok v => scan (s.push { operator := some o, value := some v }) d
  | .ok (.blank d) => scan { s with grown := false } d
termination_by 2 * c.rest.length + s.grown.toNat
decreasing_by
  · rename_i h
    have := Scope.left_pass_lt (Except.ok.inj ((Scope.checkedPass_eq s c).symm.trans h))
      (by simp) (by simp) (by simp)
    simp only [Pass.left] at this
    simp only [Scope.push, Bool.toNat_true]
    omega
  · rename_i h
    have hpass := Except.ok.inj ((Scope.checkedPass_eq s c).symm.trans h)
    have hle := Scope.left_pass_le s c
    rw [hpass] at hle
    simp only [Pass.left] at hle
    simp only [Scope.grown_of_pass_eq_blank hpass, Bool.toNat_true, Bool.toNat_false]
    omega

/-- **No fault is met in a scan.** -/
theorem scan_eq (s : Scope P.Guarded) (c : Cursor) : P.scan s c = .ok (s.scan c) := by
  -- What the scan passes over is what the pass has taken.
  have hpass (s : Scope P.Guarded) (c : Cursor) {p : Pass} (h : s.pass c = p) :
      s.checkedPass c = .ok p := (Scope.checkedPass_eq s c).trans (congrArg _ h)
  fun_induction Scope.scan s c with
  | case1 s c h | case2 s c h | case3 s c d h | case4 s c o d h =>
    have := hpass s c h
    rw [scan]
    split <;> simp_all
  | case5 s c o l d h ih =>
    have := hpass s c h
    rw [scan]
    split <;> simp_all [P.literal_eq]
  | case6 s c d h ih =>
    have := hpass s c h
    rw [scan]
    split <;> simp_all

/-! ## Evaluations -/

/-- Ends a scope: its terms are reduced. -/
def close (f : Frame P.Guarded) : Except Fault (Tree P.Guarded) := do
  let reduction ← P.reduce f.scope.terms
  return .node { f.scope with terms := reduction.terms } reduction.value f.groups

/-- **One step of the machine.** -/
def step (m : Machine P.Guarded) : Except Fault (Step P.Guarded) := do
  let scan ← P.scan m.top.scope m.cursor
  let top := { m.top with scope := scan.scope }
  if scan.stop = .opened then
    return .next ⟨scan.cursor, { scope := .group }, top :: m.below⟩
  else
    let t ← P.close top
    match m.below with
    | [] => return .done t scan.cursor
    | outer :: below => return .next ⟨scan.cursor, outer.attach t, below⟩

theorem close_eq (f : Frame P.Guarded) : P.close f = .ok f.close := by
  unfold close
  rw [P.reduce_eq]
  rfl

/-- **No fault is met in a step.** -/
theorem step_eq (m : Machine P.Guarded) : P.step m = .ok m.step := by
  unfold step
  rw [P.scan_eq]
  show (if _ then _ else _) = _
  rcases m.step_cases with ⟨ho, hs⟩ | ⟨ho, outer, below, hb, hs⟩ | ⟨ho, hb, hs⟩
  · rw [if_pos ho, hs]
    rfl
  · rw [if_neg ho, hs, P.close_eq, hb]
    rfl
  · rw [if_neg ho, hs, P.close_eq, hb]
    rfl

/-- **Runs the machine to the end.** -/
def run (m : Machine P.Guarded) : Except Fault (Tree P.Guarded × Cursor) :=
  match _ : P.step m with
  | .error f => .error f
  | .ok (.next n) => run n
  | .ok (.done t c) => .ok (t, c)
termination_by m.measure
decreasing_by
  rename_i h
  exact Machine.measure_lt_of_step (Except.ok.inj ((P.step_eq m).symm.trans h))

/-- **No fault is met in a run.** -/
theorem run_eq (m : Machine P.Guarded) : P.run m = .ok m.run := by
  fun_induction Machine.run m with
  | case1 m n hstep ih =>
    have := (P.step_eq m).trans (congrArg _ hstep)
    rw [run]
    split <;> simp_all
  | case2 m t c hstep =>
    have := (P.step_eq m).trans (congrArg _ hstep)
    rw [run]
    split <;> simp_all

/-- Evaluates a text without the blanks around it. -/
def evaluateChars (text : List Char) : Except Fault (Tree P.Guarded × Cursor) :=
  P.run { cursor := Cursor.ofList (Text.strip text), top := { scope := .outermost } }

/-- **The value of an expression.** -/
def evaluate (text : String) : Except Fault Float := do
  let (tree, _) ← P.evaluateChars text.toList
  return tree.number

/-- What is said of a text whose evaluation has come to a tree. -/
def outcome (strict : Bool) (expression : List Char) (r : Tree P.Guarded × Cursor) : Outcome :=
  let value : Float := r.1.number
  if strict && isRefused r.1 r.2 then
    { expression := String.ofList expression, value := Binary64.undefined, balanced := false }
  else { expression := String.ofList expression, value := value }

/-- **The outcome of a text.** -/
def tryEvaluate (strict : Bool) (text : String) : Except Fault Outcome := do
  let expression := Text.strip text.toList
  let r ← P.evaluateChars expression
  return P.outcome strict expression r

theorem evaluateChars_eq (text : List Char) :
    P.evaluateChars text = .ok (Reckon.evaluateChars text) :=
  P.run_eq _

/-! ## Sessions -/

/-- **Takes a step of a session.** Only the steps that scan, read or evaluate
could meet a fault. -/
def sessionStep (s : Session P.Guarded) : SessionStep P.Guarded
    → Except Fault (Except SessionError (SessionReply P.Guarded × Session P.Guarded))
  | .evaluate i =>
    match s.node i with
    | .error e => return .error e
    | .ok n => do
      if n.evaluated then return .ok (.value n.number, s)
      else
        let (t, d) ← P.run { cursor := s.cursorAt n.cursor, top := { scope := n.scope } }
        let n := { n with
          scope := t.scope
          groups := n.groups ++ t.groups.map .ended
          value := t.value
          evaluated := true }
        return .ok (.value n.number, (s.setNode i n).setCursor n.cursor d)
  | .readLiteral i =>
    match s.node i with
    | .error e => return .error e
    | .ok n => do
      let (l, c) := Literal.read (s.cursorAt n.cursor)
      let v ← (P.literal l).mapError Fault.raised
      return .ok (.value v, s.setCursor n.cursor c)
  | .scan i =>
    match s.node i with
    | .error e => return .error e
    | .ok n => do
      let scan ← P.scan n.scope (s.cursorAt n.cursor)
      let s := s.setCursor n.cursor scan.cursor
      if scan.stop = .opened then
        let number := s.nodes.length
        let n := { n with scope := scan.scope, groups := n.groups ++ [.node number] }
        return .ok (.number (some number),
          (s.setNode i n).addNode { cursor := n.cursor, scope := .group })
      else return .ok (.number none, s.setNode i { n with scope := scan.scope })
  | step => return s.step step

/-- **Takes steps in order.** -/
def sessionRun (s : Session P.Guarded) : List (SessionStep P.Guarded)
    → Except Fault (Except SessionError (List (SessionReply P.Guarded × Session P.Guarded)))
  | [] => return .ok []
  | step :: steps => do
    match ← P.sessionStep s step with
    | .error e => return .error e
    | .ok (reply, next) =>
      match ← sessionRun next steps with
      | .error e => return .error e
      | .ok others => return .ok ((reply, next) :: others)

/-- **No fault is met in a step of a session**, whatever the session is. -/
theorem sessionStep_eq (s : Session P.Guarded) (step : SessionStep P.Guarded) :
    P.sessionStep s step = .ok (s.step step) := by
  cases step with
  | evaluate i =>
    simp only [sessionStep, Session.step]
    cases s.node i with
    | error e => rfl
    | ok n =>
      show (if _ then _ else _) = Except.ok (if _ then _ else _)
      by_cases h : n.evaluated = true
      · rw [if_pos h, if_pos h]
        rfl
      · rw [if_neg h, if_neg h, P.run_eq]
        rfl
  | readLiteral i =>
    simp only [sessionStep, Session.step]
    cases s.node i with
    | error e => rfl
    | ok n =>
      dsimp only
      rw [P.literal_eq]
      rfl
  | scan i =>
    simp only [sessionStep, Session.step]
    cases s.node i with
    | error e => rfl
    | ok n =>
      dsimp only
      rw [P.scan_eq]
      show (if _ then _ else _) = Except.ok (if _ then _ else _)
      by_cases h : (n.scope.scan (s.cursorAt n.cursor)).stop = .opened
      · rw [if_pos h, if_pos h]
        rfl
      · rw [if_neg h, if_neg h]
        rfl
  | cursor | newNode | newNodeOn | isBalanced | describe | push | attach | dump => rfl

/-- **No fault is met in a session**: from every state, after any steps. -/
theorem sessionRun_eq (s : Session P.Guarded) (steps : List (SessionStep P.Guarded)) :
    P.sessionRun s steps = .ok (s.run steps) := by
  induction steps generalizing s with
  | nil => rfl
  | cons step steps ih =>
    rw [sessionRun, P.sessionStep_eq, Session.run]
    cases s.step step with
    | error e => rfl
    | ok r =>
      obtain ⟨reply, next⟩ := r
      show (do let others ← P.sessionRun next steps; _) = Except.ok (do let others ← next.run steps; _)
      rw [ih]
      cases next.run steps with
      | error e => rfl
      | ok others => rfl

/-! ## The doubles -/

variable {P} in
/-- Operators that compute on doubles make the guarded arithmetic that of the
doubles. -/
def ComputesDoubles.hom (h : P.ComputesDoubles) : ArithmeticHom P.Guarded Float where
  toFun x := x
  map_zero := rfl
  map_one := rfl
  map_minusOne := rfl
  map_undefined := rfl
  map_apply o v b := Except.ok.inj ((P.apply_eq o v b).symm.trans (h o v b))
  map_ofDecimal _ := rfl

variable {P} in
theorem ComputesDoubles.number_evaluateChars (h : P.ComputesDoubles) (text : List Char) :
    (Reckon.evaluateChars text : Tree P.Guarded × Cursor).1.number
      = (Reckon.evaluateChars text : Tree Float × Cursor).1.number := by
  rw [h.hom.map_evaluateChars, Tree.number, Tree.number, Tree.value_map]
  exact h.hom.map_getD _

/-- **No fault is met in a text.** Its value is that of the evaluator. -/
theorem evaluate_eq (text : String) :
    P.evaluate text = .ok (Reckon.evaluateChars text.toList : Tree P.Guarded × Cursor).1.number := by
  unfold evaluate
  rw [P.evaluateChars_eq]
  rfl

theorem tryEvaluate_eq (strict : Bool) (text : String) :
    P.tryEvaluate strict text
      = .ok (P.outcome strict (Text.strip text.toList)
          (Reckon.evaluateChars (Text.strip text.toList))) := by
  unfold tryEvaluate
  dsimp only
  rw [P.evaluateChars_eq]
  rfl

variable {P} in
theorem ComputesDoubles.tryEvaluate_eq (h : P.ComputesDoubles) (strict : Bool) (text : String) :
    P.tryEvaluate strict text = .ok (Reckon.tryEvaluate strict text) := by
  rw [P.tryEvaluate_eq]
  refine congrArg Except.ok ?_
  unfold outcome Reckon.tryEvaluate
  dsimp only
  rw [isRefused_evaluateChars_congr (β := Float) Iff.rfl, h.number_evaluateChars]

end Primitives

/-- **Evaluation never fails.** Whatever the operations are that can raise, as long
as they raise no other errors than those they are documented to, the checked
evaluator has a value and an outcome for every text. From every state of a
session – whatever steps have led there, or none – it takes every step that the
session takes, and evaluating a node answers with a value. Over operations that
compute on doubles the answers for a text are those of the program. -/
theorem evaluation_never_faults (P : Primitives) :
    (∀ text, P.evaluate text
        = .ok (evaluateChars text.toList : Tree P.Guarded × Cursor).1.number)
      ∧ (∀ strict text, ∃ o, P.tryEvaluate strict text = .ok o)
      ∧ (∀ (s : Session P.Guarded) (steps : List (SessionStep P.Guarded)),
        P.sessionRun s steps = .ok (s.run steps))
      ∧ (∀ (s : Session P.Guarded) (i : Nat) (n : Node P.Guarded), s.node i = .ok n
        → ∃ v next, P.sessionStep s (.evaluate i) = .ok (.ok (.value v, next)))
      ∧ (P.ComputesDoubles → ∀ text, P.evaluate text = .ok (evaluate text)
        ∧ ∀ strict, P.tryEvaluate strict text = .ok (tryEvaluate strict text)) := by
  refine ⟨P.evaluate_eq, fun strict text => ⟨_, P.tryEvaluate_eq strict text⟩, P.sessionRun_eq,
    fun s i n hn => ?_, fun h text => ⟨?_, (h.tryEvaluate_eq · text)⟩⟩
  · rw [P.sessionStep_eq, Session.step, hn]
    by_cases h : n.evaluated = true
    · exact ⟨n.number, s, congrArg _ (if_pos h)⟩
    · exact ⟨_, _, congrArg _ (if_neg h)⟩
  · rw [P.evaluate_eq, h.number_evaluateChars]
    rfl

/-- A division that raises and a node that starts with a nameless step, over the
usual operations. -/
theorem evaluation_never_faults_standard :
    let n : Node Primitives.standard.Guarded :=
      { cursor := 0, scope := { closesGroup := true, terms := [⟨none, none, none⟩] } }
    let s : Session Primitives.standard.Guarded :=
      { cursors := [Cursor.ofList "*8/0^-1".toList], nodes := [n] }
    Primitives.standard.div 8 0 = .error .zeroDivision
      ∧ Primitives.standard.pow 0 (-1) = .error .value
      ∧ Primitives.standard.ComputesDoubles
      ∧ (Primitives.standard.evaluate "8/0" = .ok (evaluate "8/0")
        ∧ ∀ strict, Primitives.standard.tryEvaluate strict "8/0" = .ok (tryEvaluate strict "8/0"))
      ∧ s.node 0 = .ok n
      ∧ ∃ v next, Primitives.standard.sessionStep s (.evaluate 0) = .ok (.ok (.value v, next)) := by
  intro n s
  have hdoubles := Primitives.computesDoubles_standard
  have hnode : s.node 0 = .ok n := rfl
  obtain ⟨_, _, _, hevaluate, hprogram⟩ := evaluation_never_faults Primitives.standard
  exact ⟨by decide +kernel, by decide +kernel, hdoubles, hprogram hdoubles "8/0", hnode,
    hevaluate s 0 n hnode⟩

end Reckon
