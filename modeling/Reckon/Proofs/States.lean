import Reckon.Proofs.Passes

/-!
# The states of a run

What is kept by every step of the machine holds of all the states that a
run goes through (`Machine.states_induction`). The text under the cursor is
kept: a scan moves over it and changes nothing, so that a state knows its
place by the number of characters before it.

A run is the recursion, and what the recursion hands from one call to
another is handed on by a state: when a scan opens a group, one of the
states that follow is that of the same scope with the group as a term
(`Machine.mem_states_of_opened`). In between the machine evaluates the
group, with the scope below it on the stack, and since groups open in
groups the statement that the induction needs is about any frame with
another one below it (`Machine.mem_states_evaluate`).
-/

namespace Reckon

/-! ## The text under a cursor -/

theorem Cursor.rest_eq_drop (c : Cursor) : c.rest = c.text.drop c.position := by
  rw [text, position, ← List.length_reverse, List.drop_left]

theorem Cursor.length_text (c : Cursor) : c.text.length = c.position + c.rest.length := by
  rw [text, List.length_append, List.length_reverse]
  rfl

/-- The cursor after a pass, if it goes anywhere. -/
def Pass.cursor? : Pass → Option Cursor
  | .ended | .stalled => none
  | .closed c | .opened _ c | .literal _ _ c | .blank c => some c

theorem Literal.text_read (c : Cursor) : (Literal.read c).2.text = c.text := by
  unfold Literal.read Cursor.consumeWhile
  dsimp only
  rw [Cursor.text_read]
  split
  · exact Cursor.text_skip 1 c
  · rfl

theorem text_skipSpaces (c : Cursor) : (skipSpaces c).text = c.text :=
  Cursor.text_read _ c

/-- **A pass goes over the text**, and leaves it as it is. -/
theorem Pass.text_take {b : Bool} {c d : Cursor} (h : (take b c).cursor? = some d) :
    d.text = c.text := by
  have hskip {c d : Cursor} (h : some (c.skip 1) = some d) : d.text = c.text := by
    obtain rfl := Option.some.inj h
    exact Cursor.text_skip 1 c
  have hread {c d : Cursor} (h : some (Literal.read c).2 = some d) : d.text = c.text := by
    obtain rfl := Option.some.inj h
    exact Literal.text_read c
  unfold take at h
  split at h
  · rw [Option.some.inj h]
  · split at h
    · exact hskip h
    · split at h
      · unfold operand at h
        dsimp only at h
        split at h
        · rw [hskip h, text_skipSpaces, Cursor.text_skip]
        · rw [hread h, text_skipSpaces, Cursor.text_skip]
      · split at h
        · exact hread h
        · split at h
          · exact hskip h
          · rw [Option.some.inj h]

/-! ## The states of a run -/

section States

variable {α : Type} [Arithmetic α]

/-- A group that has ended is a term of the scope around it. -/
theorem Frame.terms_attach (f : Frame α) (t : Tree α) :
    (f.attach t).scope.terms
      = f.scope.terms
        ++ [{ operator := f.scope.pending, value := some t.number, node := some () }] := rfl

omit [Arithmetic α] in
theorem Scope.text_pass {s : Scope α} {c d : Cursor} (h : (s.pass c).cursor? = some d) :
    d.text = c.text := by
  rcases s.pass_cases c with ⟨h', _⟩ | ⟨h', _⟩ | ⟨h', _⟩
  · rw [h'] at h
    exact absurd h.symm (Option.some_ne_none d)
  · rw [h'] at h
    exact absurd h.symm (Option.some_ne_none d)
  · rw [h'] at h
    rw [Pass.text_take h, text_skipSpaces]

theorem Scope.text_scan (s : Scope α) (c : Cursor) : (s.scan c).cursor.text = c.text := by
  fun_induction scan s c with
  | case1 | case2 => rfl
  | case3 s c d h | case4 s c _ d h => exact text_pass (by rw [h]; rfl)
  | case5 s c _ _ d h ih | case6 s c d h ih => exact ih.trans (text_pass (by rw [h]; rfl))

namespace Machine

/-- **A step goes over the text**, and leaves it as it is. -/
theorem text_of_step {m n : Machine α} (h : m.step = .next n) :
    n.cursor.text = m.cursor.text := by
  rcases m.step_cases with ⟨_, hs⟩ | ⟨_, outer, below, _, hs⟩ | ⟨_, _, hs⟩
  · obtain rfl := Step.next.inj (h.symm.trans hs)
    exact Scope.text_scan _ _
  · obtain rfl := Step.next.inj (h.symm.trans hs)
    exact Scope.text_scan _ _
  · exact absurd (h.symm.trans hs) (by simp)

theorem mem_states_self (m : Machine α) : m ∈ m.states := by
  rw [states]
  exact List.mem_cons_self

/-- **Induction over the states of a run**: what holds at its start and is kept
by every step holds of all of them. -/
theorem states_induction {motive : Machine α → Prop} {m : Machine α} (start : motive m)
    (step : ∀ n n', motive n → n.step = .next n' → motive n') : ∀ n ∈ m.states, motive n := by
  fun_induction run m with
  | case1 m n hstep ih =>
    rw [states_of_next hstep]
    exact List.forall_mem_cons.mpr ⟨start, ih (step m n start hstep)⟩
  | case2 m t c hstep =>
    rw [states_of_done hstep]
    exact List.forall_mem_singleton.mpr start

/-- Every state of a run is over the text that the run began with. -/
theorem text_of_mem_states {m n : Machine α} (h : n ∈ m.states) :
    n.cursor.text = m.cursor.text := by
  refine states_induction (motive := fun n => n.cursor.text = m.cursor.text) rfl ?_ n h
  intro n n' ih hstep
  exact (text_of_step hstep).trans ih

theorem mem_states_of_step {k m n : Machine α} (hstep : m.step = .next n)
    (hk : k ∈ n.states) : k ∈ m.states := by
  rw [states_of_next hstep]
  exact List.mem_cons_of_mem m hk

/-- The states after a state of a run are states of the run. -/
theorem states_subset {m n : Machine α} (h : n ∈ m.states) : n.states ⊆ m.states := by
  refine states_induction (motive := fun n => n.states ⊆ m.states) (List.Subset.refl _) ?_ n h
  intro n n' ih hstep k hk
  exact ih (mem_states_of_step hstep hk)

/-- **What a frame is evaluated to goes into the frame below it**, in one of
the states that follow. -/
theorem mem_states_evaluate (f g : Frame α) (below : List (Frame α)) (c : Cursor) :
    (⟨(f.evaluate c).2, g.attach (f.evaluate c).1, below⟩ : Machine α)
      ∈ Machine.states ⟨c, f, g :: below⟩ := by
  generalize hn : c.rest.length = n
  induction n using Nat.strongRecOn generalizing f g below c with
  | ind n ih =>
    subst hn
    rw [Frame.evaluate_eq]
    rcases step_cases ⟨c, f, g :: below⟩ with ⟨ho, hs⟩ | ⟨ho, outer, below', hb, hs⟩ | ⟨_, hb, _⟩
    · -- The group that opens is evaluated on top of the frame, and then the frame.
      have hscan := Scope.length_rest_scan_lt ho
      have hgroup := Frame.length_rest_evaluate_le (α := α) { scope := .group }
        (f.scope.scan c).cursor
      refine mem_states_of_step hs ?_
      dsimp only at ho hscan ⊢
      rw [if_pos ho]
      exact states_subset (ih _ hscan _ _ _ _ rfl)
        (ih _ (Nat.lt_of_le_of_lt hgroup hscan) _ _ _ _ rfl)
    · obtain ⟨rfl, rfl⟩ := List.cons.inj hb
      refine mem_states_of_step hs ?_
      dsimp only at ho ⊢
      rw [if_neg ho]
      exact mem_states_self _
    · exact absurd hb (List.cons_ne_nil g below)

/-- **A group that opens is a term of its scope later on**, with the value
that the group is evaluated to, and the run goes on where the group ends. -/
theorem mem_states_of_opened {m : Machine α}
    (h : (m.top.scope.scan m.cursor).stop = .opened) :
    let scan := m.top.scope.scan m.cursor
    let top : Frame α := { m.top with scope := scan.scope }
    let group := Frame.evaluateGroup (α := α) scan.cursor
    (⟨group.2, top.attach group.1, m.below⟩ : Machine α) ∈ m.states := by
  intro scan top group
  rcases m.step_cases with ⟨_, hs⟩ | ⟨ho, _⟩ | ⟨ho, _⟩
  · exact mem_states_of_step hs (mem_states_evaluate _ _ _ _)
  · exact absurd h ho
  · exact absurd h ho

end Machine

end States

end Reckon
