import Reckon.Machine

/-!
# Evaluation by recursion

The machine keeps the open scopes on a stack of its own. This module says
what the stack stands for: the calls of an evaluator that recurses into
every group. `Frame.evaluate` is that evaluator. It scans its scope, and
whenever the scan stops at an opening bracket it evaluates the group first
and goes on with the scope that has taken the group in; when the scan ends
it reduces.

The statement for a whole run needs the scopes that are still open, because
the machine is between two scopes most of the time. `Machine.run_eq_unwind`
has them: a run ends as the recursion ends that finishes the innermost
scope, hands it to the one around it and so on outwards.
`Machine.map_focus_states` says the same of the way there: the machine makes
the scans of the recursion, in their order. With nothing around the
innermost scope both become `Scope.evaluate_eq_recursive`.
-/

namespace Reckon

namespace Frame

variable {α : Type} [Arithmetic α]

/-! ## The recursive evaluator -/

/-- Evaluation by recursion, with the fact that ends it: a scope leaves no
more of the text than there was before it. -/
def evaluateWithin (f : Frame α) (c : Cursor) :
    { r : Tree α × Cursor // r.2.rest.length ≤ c.rest.length } :=
  let scan := f.scope.scan c
  let top := { f with scope := scan.scope }
  if h : scan.stop = .opened then
    have hscan : scan.cursor.rest.length < c.rest.length := Scope.length_rest_scan_lt h
    let group := evaluateWithin { scope := .group } scan.cursor
    have hgroup : group.1.2.rest.length < c.rest.length := Nat.lt_of_le_of_lt group.2 hscan
    let whole := evaluateWithin (top.attach group.1.1) group.1.2
    ⟨whole.1, Nat.le_trans whole.2 (Nat.le_of_lt hgroup)⟩
  else ⟨(top.close, scan.cursor), Scope.length_rest_scan_le ..⟩
termination_by c.rest.length

/-- **Evaluates a scope by recursion**: every group is evaluated by a call of
its own before the scan goes on behind it. -/
def evaluate (f : Frame α) (c : Cursor) : Tree α × Cursor :=
  (f.evaluateWithin c).1

/-- An evaluation leaves no more of the text than there was. -/
theorem length_rest_evaluate_le (f : Frame α) (c : Cursor) :
    (f.evaluate c).2.rest.length ≤ c.rest.length :=
  (f.evaluateWithin c).2

/-- **The recursion, call by call.** -/
theorem evaluate_eq (f : Frame α) (c : Cursor) :
    f.evaluate c
      = let scan := f.scope.scan c
        let top := { f with scope := scan.scope }
        if scan.stop = .opened then
          let group := evaluate { scope := .group } scan.cursor
          (top.attach group.1).evaluate group.2
        else (top.close, scan.cursor) := by
  unfold evaluate
  rw [evaluateWithin]
  dsimp only
  split
  · rfl
  · rfl

/-- **The scans of the recursion**, in the order in which they are made:
each with the scope as it was before and the place where it began. -/
def visits (f : Frame α) (c : Cursor) : List (Scope α × Cursor) :=
  let scan := f.scope.scan c
  let top := { f with scope := scan.scope }
  (f.scope, c) ::
    if h : scan.stop = .opened then
      have hscan : scan.cursor.rest.length < c.rest.length := Scope.length_rest_scan_lt h
      let group := evaluate { scope := .group } scan.cursor
      have _ : group.2.rest.length < c.rest.length :=
        Nat.lt_of_le_of_lt (length_rest_evaluate_le ..) hscan
      visits { scope := .group } scan.cursor ++ visits (top.attach group.1) group.2
    else []
termination_by c.rest.length

/-- The scans of the recursion, call by call. -/
theorem visits_eq (f : Frame α) (c : Cursor) :
    f.visits c
      = let scan := f.scope.scan c
        let top := { f with scope := scan.scope }
        (f.scope, c) ::
          if scan.stop = .opened then
            let group := evaluate { scope := .group } scan.cursor
            visits { scope := .group } scan.cursor ++ (top.attach group.1).visits group.2
          else [] := by
  rw [visits]
  dsimp only
  split
  · rfl
  · rfl

/-! ## What is around a scope -/

/-- **Hands an ended scope to the scopes around it**, from the inside out:
each takes it in as a group and is evaluated in turn. -/
def unwind : List (Frame α) → Tree α × Cursor → Tree α × Cursor
  | [], r => r
  | outer :: below, (t, c) => unwind below ((outer.attach t).evaluate c)

/-- The scans that are made in the scopes around an ended one. -/
def unwindVisits : List (Frame α) → Tree α × Cursor → List (Scope α × Cursor)
  | [], _ => []
  | outer :: below, (t, c) =>
    (outer.attach t).visits c ++ unwindVisits below ((outer.attach t).evaluate c)

end Frame

/-! ## The machine runs the recursion -/

namespace Machine

variable {α : Type} [Arithmetic α]

/-- What the machine is about to scan. -/
def focus (m : Machine α) : Scope α × Cursor :=
  (m.top.scope, m.cursor)

/-- **What a step can be**: a group opens and becomes the innermost scope, or
the innermost scope ends and goes into the one around it, or there is none
around it and the run is over. -/
theorem step_cases (m : Machine α) :
    let scan := m.top.scope.scan m.cursor
    let top := { m.top with scope := scan.scope }
    (scan.stop = .opened ∧ m.step = .next ⟨scan.cursor, { scope := .group }, top :: m.below⟩)
      ∨ (scan.stop ≠ .opened ∧ ∃ outer below, m.below = outer :: below
          ∧ m.step = .next ⟨scan.cursor, outer.attach top.close, below⟩)
      ∨ (scan.stop ≠ .opened ∧ m.below = [] ∧ m.step = .done top.close scan.cursor) := by
  intro scan top
  unfold step
  by_cases h : scan.stop = .opened
  · refine .inl ⟨h, ?_⟩
    exact if_pos h
  · refine .inr ?_
    cases hb : m.below with
    | nil => exact .inr ⟨h, rfl, (if_neg h).trans rfl⟩
    | cons outer below => exact .inl ⟨h, outer, below, rfl, (if_neg h).trans rfl⟩

/-- **A run is the recursion on the innermost scope**, handed outwards
through the scopes around it. -/
theorem run_eq_unwind (m : Machine α) :
    m.run = Frame.unwind m.below (m.top.evaluate m.cursor) := by
  -- Of the three things that a step can be, `hstep` leaves those that go on,
  -- and what is then below is what the recursion returns to.
  fun_induction run m with
  | case1 m n hstep ih =>
    rw [ih, Frame.evaluate_eq m.top m.cursor]
    rcases m.step_cases with ⟨ho, hs⟩ | ⟨ho, outer, below, hb, hs⟩ | ⟨_, _, hs⟩
    · obtain rfl := Step.next.inj (hstep.symm.trans hs)
      rw [if_pos ho]
      rfl
    · obtain rfl := Step.next.inj (hstep.symm.trans hs)
      rw [if_neg ho, hb]
      rfl
    · exact absurd (hstep.symm.trans hs) (by simp)
  | case2 m t c hstep =>
    rw [Frame.evaluate_eq m.top m.cursor]
    rcases m.step_cases with ⟨_, hs⟩ | ⟨_, _, _, _, hs⟩ | ⟨ho, hb, hs⟩
    · exact absurd (hstep.symm.trans hs) (by simp)
    · exact absurd (hstep.symm.trans hs) (by simp)
    · obtain ⟨rfl, rfl⟩ := Step.done.inj (hstep.symm.trans hs)
      rw [if_neg ho, hb]
      rfl

/-- A state that is not the last one comes before the states after it. -/
theorem states_of_next {m n : Machine α} (h : m.step = .next n) :
    m.states = m :: n.states := by
  rw [states]
  refine congrArg (List.cons m) ?_
  split
  · rename_i h'
    rw [Step.next.inj (h'.symm.trans h)]
  · rename_i h'
    exact absurd (h'.symm.trans h) (by simp)

/-- The last state has none after it. -/
theorem states_of_done {m : Machine α} {t : Tree α} {c : Cursor} (h : m.step = .done t c) :
    m.states = [m] := by
  rw [states]
  refine congrArg (List.cons m) ?_
  split
  · rename_i h'
    exact absurd (h'.symm.trans h) (by simp)
  · rfl

/-- **A run makes the scans of the recursion**, in their order. -/
theorem map_focus_states (m : Machine α) :
    m.states.map focus
      = m.top.visits m.cursor ++ Frame.unwindVisits m.below (m.top.evaluate m.cursor) := by
  fun_induction run m with
  | case1 m n hstep ih =>
    rw [states_of_next hstep, List.map_cons, ih, Frame.visits_eq m.top m.cursor,
      Frame.evaluate_eq m.top m.cursor]
    dsimp only
    rcases m.step_cases with ⟨ho, hs⟩ | ⟨ho, outer, below, hb, hs⟩ | ⟨_, _, hs⟩
    · obtain rfl := Step.next.inj (hstep.symm.trans hs)
      rw [if_pos ho, if_pos ho, List.cons_append, List.append_assoc]
      rfl
    · obtain rfl := Step.next.inj (hstep.symm.trans hs)
      rw [if_neg ho, if_neg ho, hb]
      rfl
    · exact absurd (hstep.symm.trans hs) (by simp)
  | case2 m t c hstep =>
    rw [states_of_done hstep, Frame.visits_eq m.top m.cursor,
      Frame.evaluate_eq m.top m.cursor]
    dsimp only
    rcases m.step_cases with ⟨_, hs⟩ | ⟨_, _, _, _, hs⟩ | ⟨ho, hb, _⟩
    · exact absurd (hstep.symm.trans hs) (by simp)
    · exact absurd (hstep.symm.trans hs) (by simp)
    · rw [if_neg ho, if_neg ho, hb]
      rfl

end Machine

/-- A scope with nothing around it is evaluated as the recursion
evaluates it. -/
theorem Scope.evaluate_eq {α : Type} [Arithmetic α] (s : Scope α) (c : Cursor) :
    s.evaluate c = Frame.evaluate { scope := s } c := by
  unfold Scope.evaluate
  rw [Machine.run_eq_unwind]
  rfl

/-- The scans of such an evaluation are those of the recursion. -/
theorem Scope.map_focus_states {α : Type} [Arithmetic α] (s : Scope α) (c : Cursor) :
    (Machine.states { cursor := c, top := { scope := s } }).map Machine.focus
      = Frame.visits { scope := s } c := by
  rw [Machine.map_focus_states]
  exact List.append_nil _

/-- **Evaluating on a stack is evaluating by recursion**: from every place of
every text, for a group and for a whole text, both give the same tree –
terms, values, closing brackets and groups of every scope in it – and stop
at the same place, and on the way both make the same scans in the same
order. -/
theorem Scope.evaluate_eq_recursive {α : Type} [Arithmetic α] (closesGroup : Bool)
    (c : Cursor) :
    let s : Scope α := { closesGroup := closesGroup }
    s.evaluate c = Frame.evaluate { scope := s } c
      ∧ (Machine.states { cursor := c, top := { scope := s } }).map Machine.focus
        = Frame.visits { scope := s } c :=
  ⟨Scope.evaluate_eq _ c, Scope.map_focus_states _ c⟩

end Reckon
