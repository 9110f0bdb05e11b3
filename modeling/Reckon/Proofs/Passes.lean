import Reckon.Proofs.Recursion

/-!
# An evaluation, pass by pass

A fact about texts is a fact about what single passes take from them. This
module takes the recursive evaluation apart into passes: one equation for
each thing that a pass can take, and the induction that goes with them,
`Frame.evaluate_induction`. A literal and a blank leave the same scope open
at a later place; a bracket opens a group, whose evaluation comes first; the
other three end the scope.
-/

namespace Reckon

/-! ## What a pass takes, character by character -/

namespace Cursor

theorem rest_consumeWhile (admits : Char → Bool) (c : Cursor) :
    (c.consumeWhile admits).2.rest = c.rest.dropWhile admits := by
  have h := consumeWhile_append admits c
  exact List.append_cancel_left (h.trans List.takeWhile_append_dropWhile.symm)

theorem rest_of_nextChar? {c : Cursor} {x : Char} (h : c.nextChar? = some x) :
    c.rest = x :: (c.skip 1).rest := by
  obtain ⟨before, _ | ⟨y, rest⟩, last⟩ := c
  · exact absurd h (by simp [nextChar?])
  · obtain rfl : y = x := Option.some.inj h
    rfl

theorem peek_eq {c : Cursor} {x : Char} (h : c.nextChar? = some x) (admits : Char → Bool) :
    c.peek admits = admits x := by
  rw [peek, h, Option.any_some]

theorem nextChar?_of_peek {c : Cursor} {x : Char} (h : c.peek (· == x) = true) :
    c.nextChar? = some x := by
  cases hc : c.nextChar? with
  | none => exact absurd h (by simp [peek, hc])
  | some y =>
    rw [peek_eq hc, beq_iff_eq] at h
    rw [h]

end Cursor

theorem rest_skipSpaces (c : Cursor) : (skipSpaces c).rest = c.rest.dropWhile (· == ' ') :=
  Cursor.rest_consumeWhile _ c

theorem nextChar?_skipSpaces_ne (c : Cursor) : (skipSpaces c).nextChar? ≠ some ' ' := by
  intro h
  have hx := List.head?_dropWhile_not (· == ' ') c.rest
  rw [Cursor.nextChar?, rest_skipSpaces] at h
  rw [h] at hx
  exact absurd hx (by decide)

/-- A numeric character is one of the twelve from the point to the nine. -/
theorem toNat_of_isNumeric {x : Char} (h : isNumeric x = true) :
    46 ≤ x.toNat ∧ x.toNat ≤ 57 := by
  rw [isNumeric, Bool.or_eq_true, beq_iff_eq] at h
  rcases h with h | rfl
  · rw [Char.isDigit, Bool.and_eq_true, decide_eq_true_eq, decide_eq_true_eq] at h
    have hlow : 48 ≤ x.toNat := h.1
    exact ⟨by omega, h.2⟩
  · decide

/-- A numeric character writes no operator. -/
theorem Operator.ofChar?_of_isNumeric {x : Char} (h : isNumeric x = true) :
    ofChar? x = none := by
  rw [Option.eq_none_iff_forall_ne_some]
  intro o ho
  rw [← ofChar?_eq_some_iff.mp ho] at h
  cases o <;> exact absurd h (by decide)

namespace Pass

variable {c : Cursor} {x : Char} {o : Operator}

theorem take_openBracket (b : Bool) (h : c.nextChar? = some '(') :
    take b c = .opened .add (c.skip 1) := by
  unfold take
  rw [h]
  rfl

theorem take_closeBracket (b : Bool) (h : c.nextChar? = some ')') :
    take b c = if b then .closed (c.skip 1) else .blank c := by
  unfold take
  rw [h]
  cases b <;> rfl

theorem take_operator (b : Bool) (h : c.nextChar? = some o.symbol) :
    take b c = operand o (c.skip 1) := by
  unfold take
  rw [h]
  cases o <;> rfl

theorem take_numeric (b : Bool) (h : c.nextChar? = some x) (hx : isNumeric x = true) :
    take b c = .literal .add (Literal.read c).1 (Literal.read c).2 := by
  have hopen : (x == '(') = false := by
    cases hx' : x == '(' <;> simp_all [isNumeric]
  unfold take
  rw [h]
  simp only [hopen, Operator.ofChar?_of_isNumeric hx, hx, if_true, Bool.false_eq_true, if_false]

theorem take_foreign {b : Bool} (h : c.nextChar? = some x) (hopen : x ≠ '(')
    (hclose : x ≠ ')') (hop : Operator.ofChar? x = none) (hx : isNumeric x = false) :
    take b c = .blank c := by
  unfold take
  rw [h]
  simp [hopen, hclose, hop, hx]

theorem take_none {b : Bool} (h : c.nextChar? = none) : take b c = .blank c := by
  unfold take
  rw [h]

end Pass

/-! ## What a pass does to a scan -/

namespace Scope

variable {α : Type} {s : Scope α} {c d : Cursor}

theorem pass_of_nil (hc : c.rest = []) : s.pass c = .ended := by
  unfold pass
  rw [Cursor.hasMore, hc]
  rfl

theorem pass_of_not_grown (hc : c.rest ≠ []) (hs : s.grown = false) :
    s.pass c = .stalled := by
  obtain ⟨before, _ | ⟨x, rest⟩, last⟩ := c
  · exact absurd rfl hc
  · unfold pass
    rw [hs]
    rfl

theorem pass_of_grown (hc : c.rest ≠ []) (hs : s.grown = true) :
    s.pass c = .take s.closesGroup (skipSpaces c) := by
  obtain ⟨before, _ | ⟨x, rest⟩, last⟩ := c
  · exact absurd rfl hc
  · unfold pass
    rw [hs]
    rfl

/-- **What a pass can be**: the text is over, or the pass before took
nothing, or this one takes what there is behind the spaces. -/
theorem pass_cases (s : Scope α) (c : Cursor) :
    (s.pass c = .ended ∧ c.rest = [])
      ∨ (s.pass c = .stalled ∧ c.rest ≠ [] ∧ s.grown = false)
      ∨ (s.pass c = .take s.closesGroup (skipSpaces c) ∧ c.rest ≠ [] ∧ s.grown = true) := by
  by_cases hc : c.rest = []
  · exact .inl ⟨pass_of_nil hc, hc⟩
  · cases hs : s.grown with
    | false => exact .inr (.inl ⟨pass_of_not_grown hc hs, hc, rfl⟩)
    | true => exact .inr (.inr ⟨pass_of_grown hc hs, hc, rfl⟩)

/-- A scope that has not grown takes nothing. -/
theorem pass_of_idle (hs : s.grown = false) (c : Cursor) :
    s.pass c = .ended ∨ s.pass c = .stalled := by
  rcases s.pass_cases c with ⟨h, _⟩ | ⟨h, _⟩ | ⟨_, _, h⟩
  · exact .inl h
  · exact .inr h
  · exact absurd (hs.symm.trans h) Bool.false_ne_true

variable [Arithmetic α]

theorem scan_of_ended (h : s.pass c = .ended) : s.scan c = ⟨.ended, s, c⟩ := by
  rw [scan]
  split <;> simp_all

theorem scan_of_stalled (h : s.pass c = .stalled) : s.scan c = ⟨.stalled, s, c⟩ := by
  rw [scan]
  split <;> simp_all

theorem scan_of_closed (h : s.pass c = .closed d) :
    s.scan c = ⟨.closed, { s with closed := true, grown := false }, d⟩ := by
  rw [scan]
  split <;> simp_all

theorem scan_of_opened {o : Operator} (h : s.pass c = .opened o d) :
    s.scan c = ⟨.opened, { s with pending := some o, grown := false }, d⟩ := by
  rw [scan]
  split <;> simp_all

theorem scan_of_literal {o : Operator} {l : Literal} (h : s.pass c = .literal o l d) :
    s.scan c = (s.push { operator := some o, value := some l.value }).scan d := by
  rw [scan]
  split <;> simp_all

theorem scan_of_blank (h : s.pass c = .blank d) :
    s.scan c = { s with grown := false }.scan d := by
  rw [scan]
  split <;> simp_all

end Scope

/-- **The term that a literal is** under an operator. -/
def Literal.term {α : Type} [Arithmetic α] (l : Literal) (o : Operator) : Term α where
  operator := some o
  value := some l.value

namespace Frame

variable {α : Type} [Arithmetic α]

/-! ## What a pass does to a frame -/

omit [Arithmetic α] in
/-- A frame with one more term. -/
def push (t : Term α) (f : Frame α) : Frame α :=
  { f with scope := f.scope.push t }

/-- A frame in which a group has opened, the operand of an operator. -/
def await (o : Operator) (f : Frame α) : Frame α :=
  { f with scope := { f.scope with pending := some o, grown := false } }

/-- A frame after a pass that has taken nothing. -/
def idle (f : Frame α) : Frame α :=
  { f with scope := { f.scope with grown := false } }

/-- A frame whose closing bracket has been passed. -/
def shut (f : Frame α) : Frame α :=
  { f with scope := { f.scope with closed := true, grown := false } }

/-- **Evaluates a group** from behind its opening bracket. -/
def evaluateGroup (c : Cursor) : Tree α × Cursor :=
  evaluate { scope := .group } c

variable {f : Frame α} {c d : Cursor} {o : Operator} {l : Literal}

theorem evaluate_of_ended (h : f.scope.pass c = .ended) : f.evaluate c = (f.close, c) := by
  rw [evaluate_eq, Scope.scan_of_ended h]
  rfl

theorem evaluate_of_stalled (h : f.scope.pass c = .stalled) :
    f.evaluate c = (f.close, c) := by
  rw [evaluate_eq, Scope.scan_of_stalled h]
  rfl

theorem evaluate_of_closed (h : f.scope.pass c = .closed d) :
    f.evaluate c = (f.shut.close, d) := by
  rw [evaluate_eq, Scope.scan_of_closed h]
  rfl

theorem evaluate_of_opened (h : f.scope.pass c = .opened o d) :
    f.evaluate c
      = ((f.await o).attach (evaluateGroup (α := α) d).1).evaluate
          (evaluateGroup (α := α) d).2 := by
  rw [evaluate_eq, Scope.scan_of_opened h]
  rfl

theorem evaluate_of_literal (h : f.scope.pass c = .literal o l d) :
    f.evaluate c = (f.push (l.term o)).evaluate d := by
  rw [evaluate_eq f c, evaluate_eq _ d, Scope.scan_of_literal h]
  rfl

theorem evaluate_of_blank (h : f.scope.pass c = .blank d) :
    f.evaluate c = f.idle.evaluate d := by
  rw [evaluate_eq f c, evaluate_eq _ d, Scope.scan_of_blank h]
  rfl

/-- A frame whose last pass was blank ends: the text is over, or the scope
stalls. -/
theorem evaluate_idle (f : Frame α) (c : Cursor) : f.idle.evaluate c = (f.idle.close, c) := by
  rcases Scope.pass_of_idle (s := f.idle.scope) rfl c with h | h
  · exact evaluate_of_ended h
  · exact evaluate_of_stalled h

/-- **Induction over the passes of an evaluation.** A pass uses up a
character, or it is a blank one and the scope stalls in the next. -/
@[elab_as_elim]
theorem evaluate_induction {motive : Frame α → Cursor → Prop}
    (ended : ∀ f c, f.scope.pass c = .ended → motive f c)
    (stalled : ∀ f c, f.scope.pass c = .stalled → motive f c)
    (closed : ∀ f c d, f.scope.pass c = .closed d → motive f c)
    (opened : ∀ f c o d, f.scope.pass c = .opened o d → motive { scope := .group } d
      → motive ((f.await o).attach (evaluateGroup (α := α) d).1) (evaluateGroup (α := α) d).2
      → motive f c)
    (literal : ∀ f c o l d, f.scope.pass c = .literal o l d
      → motive (f.push (l.term o)) d → motive f c)
    (blank : ∀ f c d, f.scope.pass c = .blank d → motive f.idle d → motive f c)
    (f : Frame α) (c : Cursor) : motive f c := by
  -- A blank pass may use up nothing, but the scope has grown before it and has
  -- not grown after it.
  generalize hn : 2 * c.rest.length + f.scope.grown.toNat = n
  induction n using Nat.strongRecOn generalizing f c with
  | ind n ih =>
    subst hn
    have hgrown (b : Bool) : b.toNat ≤ 1 := Bool.toNat_le b
    cases h : f.scope.pass c with
    | ended => exact ended f c h
    | stalled => exact stalled f c h
    | closed d => exact closed f c d h
    | opened o d =>
      have hd := Scope.left_pass_lt h (by simp) (by simp) (by simp)
      simp only [Pass.left] at hd
      have hgroup : (evaluateGroup (α := α) d).2.rest.length ≤ d.rest.length :=
        length_rest_evaluate_le ..
      refine opened f c o d h (ih _ ?_ _ _ rfl) (ih _ ?_ _ _ rfl)
      · show 2 * d.rest.length + 1 < _
        omega
      · have := hgrown ((f.await o).attach (evaluateGroup (α := α) d).1).scope.grown
        omega
    | literal o l d =>
      have hd := Scope.left_pass_lt h (by simp) (by simp) (by simp)
      simp only [Pass.left] at hd
      refine literal f c o l d h (ih _ ?_ _ _ rfl)
      have := hgrown (f.push (l.term o)).scope.grown
      omega
    | blank d =>
      have hd := Scope.left_pass_le f.scope c
      rw [h] at hd
      simp only [Pass.left] at hd
      refine blank f c d h (ih _ ?_ _ _ rfl)
      rw [Scope.grown_of_pass_eq_blank h]
      show 2 * d.rest.length + 0 < 2 * c.rest.length + 1
      omega

end Frame

end Reckon
