import Reckon.Tree

/-!
# Evaluating nested scopes

Groups nest to any depth, so the scopes that are still open are kept on a
stack of their own. A step of the machine scans the innermost one. If a
group opens in it, that group becomes the innermost; otherwise the scope
is reduced, and its value goes into the scope around it as a term.

Twice the characters left plus the size of the stack falls with every
step: an opening bracket is a character used up, and a scope that is
finished leaves the stack.
-/

namespace Reckon

/-- **An open scope**, with the groups that have ended in it. -/
structure Frame (α : Type) where
  scope : Scope α
  groups : List (Tree α) := []

namespace Frame

variable {α : Type} [Arithmetic α]

/-- **Ends the scope**: its terms are reduced. -/
def close (f : Frame α) : Tree α :=
  let reduction := reduce f.scope.terms
  .node { f.scope with terms := reduction.terms } reduction.value f.groups

/-- Takes in a group that has ended. -/
def attach (f : Frame α) (t : Tree α) : Frame α where
  scope := f.scope.attach t.value
  groups := f.groups ++ [t]

end Frame

/-- **A state of the evaluation.** -/
structure Machine (α : Type) where
  /-- Where the text is being read. -/
  cursor : Cursor
  /-- The innermost open scope. -/
  top : Frame α
  /-- The open scopes around it, from the inside out. -/
  below : List (Frame α) := []

/-- What a step leads to. -/
inductive Step (α : Type) where
  /-- The evaluation goes on. -/
  | next (m : Machine α)
  /-- The outermost scope has ended. -/
  | done (t : Tree α) (c : Cursor)

namespace Machine

variable {α : Type}

/-- The quantity that every step makes smaller. -/
def measure (m : Machine α) : Nat :=
  2 * m.cursor.rest.length + (m.below.length + 1)

variable [Arithmetic α]

/-- **One step**: the innermost scope is scanned, and it opens a group or
ends. -/
def step (m : Machine α) : Step α :=
  let scan := m.top.scope.scan m.cursor
  let top := { m.top with scope := scan.scope }
  if scan.stop = .opened then
    .next ⟨scan.cursor, { scope := .group }, top :: m.below⟩
  else
    match m.below with
    | [] => .done top.close scan.cursor
    | outer :: below => .next ⟨scan.cursor, outer.attach top.close, below⟩

/-- **Every step makes the measure smaller.** -/
theorem measure_lt_of_step {m n : Machine α} (h : m.step = .next n) :
    n.measure < m.measure := by
  unfold step at h
  dsimp only at h
  split at h
  · rename_i hopen
    have := Scope.length_rest_scan_lt hopen
    cases h
    simp only [measure, List.length_cons]
    omega
  · have := Scope.length_rest_scan_le m.top.scope m.cursor
    split at h
    · simp at h
    · rename_i hb
      cases h
      simp only [measure, hb, List.length_cons]
      omega

/-- **Runs to the end**: the evaluated outermost scope, and the cursor
where its scan stopped. -/
def run (m : Machine α) : Tree α × Cursor :=
  match _ : m.step with
  | .next n => run n
  | .done t c => (t, c)
termination_by m.measure
decreasing_by
  rename_i h
  exact measure_lt_of_step h

/-- The states that a run goes through. -/
def states (m : Machine α) : List (Machine α) :=
  m :: match _ : m.step with
    | .next n => states n
    | .done _ _ => []
termination_by m.measure
decreasing_by
  rename_i h
  exact measure_lt_of_step h

end Machine

/-- **Evaluates a scope** from a cursor on. -/
def Scope.evaluate {α : Type} [Arithmetic α] (s : Scope α) (c : Cursor) : Tree α × Cursor :=
  Machine.run { cursor := c, top := { scope := s } }

end Reckon
