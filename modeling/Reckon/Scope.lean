import Reckon.Literal
import Reckon.Reduction.Basic

/-!
# Scopes

A scope is a level of an expression: the whole text, or the inside of a
bracketed group. Scanning reads the terms of one scope from a cursor. It
goes by passes, and a pass takes at most one thing: a literal with its
operator, an opening bracket, or the closing bracket of this scope.

A scan stops at an opening bracket, because the group has to be evaluated
before it can be a term here, and it stops for good at the scope's closing
bracket, at the end of the text, or when a pass finds nothing that it can
take. `Scope.pending` keeps the operator that the open group will be a
term of.

Two bare juxtaposed terms are summed: a term with no operator before it
has a plus.
-/

namespace Reckon

/-- **A scope that is being scanned.** -/
structure Scope (α : Type) where
  /-- Is it the inside of a group, which a closing bracket ends? -/
  closesGroup : Bool
  /-- Has its closing bracket been passed? -/
  closed : Bool := false
  /-- The terms so far, in order. -/
  terms : List (Term α) := []
  /-- Has a term come in since the last pass began? The first pass needs
  none. -/
  grown : Bool := true
  /-- The operator that the open group is a term of. -/
  pending : Option Operator := none
deriving Repr, DecidableEq

/-- **What a pass of a scan takes**, with the cursor after it. -/
inductive Pass where
  /-- The text is used up. -/
  | ended
  /-- The pass before this one took nothing. -/
  | stalled
  /-- The closing bracket of the scope. -/
  | closed (c : Cursor)
  /-- An opening bracket, with the operator before it. -/
  | opened (operator : Operator) (c : Cursor)
  /-- A literal, with the operator before it. -/
  | literal (operator : Operator) (l : Literal) (c : Cursor)
  /-- Spaces at the most. -/
  | blank (c : Cursor)

/-- Why a scan stops. -/
inductive Stop where
  | ended
  | stalled
  | closed
  /-- A group opens, and the scan goes on after it. -/
  | opened
deriving Repr, DecidableEq

/-- **What a scan leaves.** -/
structure Scan (α : Type) where
  stop : Stop
  scope : Scope α
  cursor : Cursor

/-- Passes the spaces at a cursor. -/
def skipSpaces (c : Cursor) : Cursor :=
  (c.consumeWhile (· == ' ')).2

theorem length_rest_skipSpaces_le (c : Cursor) :
    (skipSpaces c).rest.length ≤ c.rest.length :=
  Cursor.length_rest_consumeWhile_le ..

namespace Pass

/-- What follows an operator: a group or a literal. -/
def operand (o : Operator) (c : Cursor) : Pass :=
  let c := skipSpaces c
  if c.peek (· == '(') then .opened o (c.skip 1)
  else
    let (l, c) := Literal.read c
    .literal o l c

/-- **What the pass takes at a cursor** that is past the spaces. -/
def take (closesGroup : Bool) (c : Cursor) : Pass :=
  match c.nextChar? with
  | none => .blank c
  | some x =>
    if x == '(' then .opened .add (c.skip 1)
    else
      match Operator.ofChar? x with
      | some o => operand o (c.skip 1)
      | none =>
        if isNumeric x then
          let (l, c) := Literal.read c
          .literal .add l c
        else if x == ')' && closesGroup then .closed (c.skip 1)
        else .blank c

/-- The characters that a pass leaves: all, if it goes nowhere. -/
def left (whole : Nat) : Pass → Nat
  | .ended | .stalled => whole
  | .closed c | .opened _ c | .literal _ _ c | .blank c => c.rest.length

end Pass

namespace Scope

variable {α : Type}

/-- The scope of a whole text. -/
def outermost : Scope α where
  closesGroup := false

/-- The scope of a group. -/
def group : Scope α where
  closesGroup := true

/-- Takes in a term. -/
def push (t : Term α) (s : Scope α) : Scope α :=
  { s with terms := s.terms ++ [t], grown := true }

/-- **Takes in the open group**, with the value it turned out to have. -/
def attach [Arithmetic α] (value : Option α) (s : Scope α) : Scope α :=
  { s.push ⟨s.pending, some (value.getD Arithmetic.undefined), some ()⟩ with pending := none }

/-- **One pass of a scan.** -/
def pass (s : Scope α) (c : Cursor) : Pass :=
  if !c.hasMore then .ended
  else if !s.grown then .stalled
  else .take s.closesGroup (skipSpaces c)

end Scope

/-! ## A scan comes to an end -/

theorem Cursor.length_rest_skip_one_lt {c : Cursor} (h : c.nextChar?.isSome) :
    (c.skip 1).rest.length < c.rest.length := by
  obtain ⟨before, _ | ⟨x, rest⟩, last⟩ := c
  · simp [Cursor.nextChar?] at h
  · simp

theorem Cursor.isSome_nextChar?_of_peek {c : Cursor} {p : Char → Bool}
    (h : c.peek p = true) : c.nextChar?.isSome := by
  unfold Cursor.peek at h
  cases hc : c.nextChar? <;> simp_all

/-- An operand, be it missing, leaves no more than there was. -/
theorem Pass.left_operand_le (o : Operator) (c : Cursor) (n : Nat) :
    (Pass.operand o c).left n ≤ c.rest.length := by
  unfold operand
  dsimp only
  split
  · rename_i h
    exact Nat.le_of_lt (Nat.lt_of_lt_of_le
      (Cursor.length_rest_skip_one_lt (Cursor.isSome_nextChar?_of_peek h))
      (length_rest_skipSpaces_le c))
  · exact Nat.le_trans (Literal.length_rest_read_le _) (length_rest_skipSpaces_le c)

/-- **A pass that is not blank uses up a character.** -/
theorem Pass.left_take_lt {b : Bool} {c : Cursor} (n : Nat) :
    (Pass.take b c).left n < c.rest.length ∨ Pass.take b c = .blank c := by
  unfold take
  split
  · exact .inr rfl
  · rename_i x hx
    have hsome : c.nextChar?.isSome := by simp [hx]
    have hskip := Cursor.length_rest_skip_one_lt hsome
    split
    · exact .inl hskip
    · split
      · exact .inl (Nat.lt_of_le_of_lt (left_operand_le _ _ n) hskip)
      · split
        · rename_i hnum
          exact .inl (Literal.length_rest_read_lt (by simpa [Cursor.peek, hx] using hnum))
        · split
          · exact .inl hskip
          · exact .inr rfl

theorem Scope.left_pass_le {α : Type} (s : Scope α) (c : Cursor) :
    (s.pass c).left c.rest.length ≤ c.rest.length := by
  unfold pass
  split
  · exact Nat.le_refl _
  · split
    · exact Nat.le_refl _
    · rcases Pass.left_take_lt (b := s.closesGroup) (c := skipSpaces c) c.rest.length with h | h
      · exact Nat.le_trans (Nat.le_of_lt h) (length_rest_skipSpaces_le c)
      · rw [h]
        exact length_rest_skipSpaces_le c

/-- **A pass that takes a bracket or a literal uses up a character.** -/
theorem Scope.left_pass_lt {α : Type} {s : Scope α} {c : Cursor} {p : Pass}
    (h : s.pass c = p) (hp : ∀ d, p ≠ .blank d) (he : p ≠ .ended) (hs : p ≠ .stalled) :
    p.left c.rest.length < c.rest.length := by
  subst h
  unfold pass at hp he hs ⊢
  split
  · rename_i h; simp [h] at he
  · split
    · rename_i h1 h2; simp [h1, h2] at hs
    · rename_i h1 h2
      rcases Pass.left_take_lt (b := s.closesGroup) (c := skipSpaces c) c.rest.length with h | h
      · exact Nat.lt_of_lt_of_le h (length_rest_skipSpaces_le c)
      · simp [h1, h2, h] at hp

/-- A blank pass happens only in a scope that has grown. -/
theorem Scope.grown_of_pass_eq_blank {α : Type} {s : Scope α} {c d : Cursor}
    (h : s.pass c = .blank d) : s.grown = true := by
  unfold pass at h
  split at h
  · simp at h
  · split at h
    · simp at h
    · simp_all

namespace Scope

variable {α : Type} [Arithmetic α]

/-- **Scans a scope** until it stops. Each pass uses up a character or is
the last one but one, since a pass that takes nothing makes the next one
stall. -/
def scan (s : Scope α) (c : Cursor) : Scan α :=
  match _ : s.pass c with
  | .ended => ⟨.ended, s, c⟩
  | .stalled => ⟨.stalled, s, c⟩
  | .closed d => ⟨.closed, { s with closed := true, grown := false }, d⟩
  | .opened o d => ⟨.opened, { s with pending := some o, grown := false }, d⟩
  | .literal o l d => scan (s.push { operator := some o, value := some l.value }) d
  | .blank d => scan { s with grown := false } d
termination_by 2 * c.rest.length + s.grown.toNat
decreasing_by
  · rename_i h
    have := left_pass_lt h (by simp) (by simp) (by simp)
    simp only [Pass.left] at this
    simp only [push, Bool.toNat_true]
    omega
  · rename_i h
    have hle := left_pass_le s c
    rw [h] at hle
    simp only [Pass.left] at hle
    simp only [grown_of_pass_eq_blank h, Bool.toNat_true, Bool.toNat_false]
    omega

/-- A scan leaves no more of the text than there was. -/
theorem length_rest_scan_le (s : Scope α) (c : Cursor) :
    (s.scan c).cursor.rest.length ≤ c.rest.length := by
  fun_induction scan s c with
  | case1 | case2 => exact Nat.le_refl _
  | case3 s c d h | case4 s c _ d h =>
    have := left_pass_le s c
    rwa [h] at this
  | case5 s c _ _ d h ih | case6 s c d h ih =>
    have := left_pass_le s c
    rw [h] at this
    exact Nat.le_trans ih this

/-- **A scan that opens a group has passed its bracket.** -/
theorem length_rest_scan_lt {s : Scope α} {c : Cursor} (h : (s.scan c).stop = .opened) :
    (s.scan c).cursor.rest.length < c.rest.length := by
  fun_induction scan s c with
  | case1 | case2 | case3 => simp at h
  | case4 s c o d hp =>
    simpa [Pass.left] using left_pass_lt hp (by simp) (by simp) (by simp)
  | case5 s c _ _ d hp ih | case6 s c d hp ih =>
    have := left_pass_le s c
    rw [hp] at this
    exact Nat.lt_of_lt_of_le (ih h) this

end Scope

end Reckon
