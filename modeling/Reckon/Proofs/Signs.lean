import Reckon.Proofs.Groups

/-!
# Where literals begin

Between the sign of a literal and its digits there is nothing, while an
operator may stand away from its operand. The two look alike in a text, and
only the scan tells which of them a plus or a minus is: it depends on whether
an operand was missing there. So what is said of the sign of a literal is said
of a pass of the scan that reads one.

A pass that reads a literal begins it at `Scope.literalStart?`: behind the
spaces, or behind an operator and the spaces there. `evaluationPasses` lists
the passes that the evaluation of a text makes, each with its scope and the
place where it begins, and `TakesSignAt` says of a place of the text that a
literal begins with a sign there. `Frame.passes` is the same list for the
recursion.
-/

namespace Reckon

/-! ## The literal of a pass -/

/-- Does the character write an operator? -/
def writesOperator (x : Char) : Bool :=
  (Operator.ofChar? x).isSome

section Literals

variable {α : Type}

/-- **Where a pass begins to read a literal**, if it reads one. -/
def Scope.literalStart? (s : Scope α) (c : Cursor) : Option Cursor :=
  match s.pass c with
  | .literal .. =>
    let c := skipSpaces c
    some (if c.peek writesOperator then skipSpaces (c.skip 1) else c)
  | _ => none

/-- The literal of an operand begins behind the spaces. -/
theorem Pass.read_of_operand {o o' : Operator} {l : Literal} {c d : Cursor}
    (h : operand o c = .literal o' l d) : Literal.read (skipSpaces c) = (l, d) := by
  unfold operand at h
  dsimp only at h
  split at h
  · exact Pass.noConfusion h
  · obtain ⟨_, rfl, rfl⟩ := Pass.literal.inj h
    rfl

theorem Pass.read_of_take {b : Bool} {o : Operator} {l : Literal} {c d : Cursor}
    (h : take b c = .literal o l d) :
    Literal.read (if c.peek writesOperator then skipSpaces (c.skip 1) else c) = (l, d) := by
  cases hc : c.nextChar? with
  | none =>
    rw [take_none hc] at h
    exact Pass.noConfusion h
  | some x =>
    rw [Cursor.peek_eq hc, writesOperator]
    by_cases hopen : x = '('
    · subst hopen
      rw [take_openBracket b hc] at h
      exact Pass.noConfusion h
    by_cases hclose : x = ')'
    · subst hclose
      rw [take_closeBracket b hc] at h
      cases b <;> exact Pass.noConfusion h
    cases hop : Operator.ofChar? x with
    | some o' =>
      rw [← Operator.ofChar?_eq_some_iff.mp hop] at hc
      rw [take_operator b hc] at h
      exact read_of_operand h
    | none =>
      cases hnum : isNumeric x with
      | true =>
        rw [take_numeric b hc hnum] at h
        obtain ⟨_, rfl, rfl⟩ := Pass.literal.inj h
        rfl
      | false =>
        rw [take_foreign hc hopen hclose hop hnum] at h
        exact Pass.noConfusion h

/-- **The literal of a pass is read where it begins.** -/
theorem Scope.exists_literalStart {s : Scope α} {c d : Cursor} {o : Operator} {l : Literal}
    (h : s.pass c = .literal o l d) :
    ∃ e, s.literalStart? c = some e ∧ Literal.read e = (l, d) := by
  refine ⟨_, by rw [literalStart?, h], ?_⟩
  rcases s.pass_cases c with ⟨h', _⟩ | ⟨h', _⟩ | ⟨h', _⟩
  · exact Pass.noConfusion (h.symm.trans h')
  · exact Pass.noConfusion (h.symm.trans h')
  · exact Pass.read_of_take (h'.symm.trans h)

/-- The text from where its first literal begins: behind the spaces, or behind
an operator and the spaces there. -/
def literalText (s : List Char) : List Char :=
  match unspaced s with
  | [] => []
  | x :: t => if writesOperator x then unspaced t else x :: t

/-- **Where a pass begins its literal is told by the text.** -/
theorem Scope.rest_of_literalStart {s : Scope α} {c e : Cursor}
    (h : s.literalStart? c = some e) : e.rest = literalText c.rest ∧ e.text = c.text := by
  have hrest : (skipSpaces c).rest = unspaced c.rest := rest_skipSpaces c
  unfold literalStart? at h
  split at h
  · obtain rfl := Option.some.inj h
    rw [literalText, ← hrest]
    cases hc : (skipSpaces c).nextChar? with
    | none =>
      have hnil : (skipSpaces c).rest = [] := List.head?_eq_none_iff.mp hc
      rw [Cursor.peek, hc, hnil]
      exact ⟨hnil, text_skipSpaces c⟩
    | some x =>
      rw [Cursor.peek_eq hc, Cursor.rest_of_nextChar? hc]
      show _ = (if writesOperator x then _ else _) ∧ _
      by_cases hop : writesOperator x = true
      · rw [if_pos hop, if_pos hop]
        refine ⟨rest_skipSpaces _, ?_⟩
        rw [text_skipSpaces, Cursor.text_skip, text_skipSpaces]
      · rw [if_neg hop, if_neg hop]
        exact ⟨Cursor.rest_of_nextChar? hc, text_skipSpaces c⟩
  · exact absurd h.symm (Option.some_ne_none e)

end Literals

/-! ## The passes of an evaluation -/

section Passes

variable {α : Type} [Arithmetic α]

namespace Scope

/-- **The passes of a scan**, each with the scope as it is before it and the
place where it begins. -/
def passes (s : Scope α) (c : Cursor) : List (Scope α × Cursor) :=
  match _ : s.pass c with
  | .literal o l d => (s, c) :: passes (s.push { operator := some o, value := some l.value }) d
  | .blank d => (s, c) :: passes { s with grown := false } d
  | _ => [(s, c)]
termination_by 2 * c.rest.length + s.grown.toNat
decreasing_by
  · rename_i h
    have := left_pass_lt h (by simp) (by simp) (by simp)
    simp only [Pass.left] at this
    simp only [push, Bool.toNat_true]
    omega
  · rename_i h
    have hle := left_pass_le s c
    rw [h] at hle
    simp only [Pass.left] at hle
    simp only [grown_of_pass_eq_blank h, Bool.toNat_true, Bool.toNat_false]
    omega

variable {s : Scope α} {c d : Cursor} {o : Operator} {l : Literal}

theorem passes_of_literal (h : s.pass c = .literal o l d) :
    s.passes c = (s, c) :: (s.push (l.term o)).passes d := by
  rw [passes]
  split <;> simp_all [Literal.term]

theorem passes_of_stop (hl : ∀ o l d, s.pass c ≠ .literal o l d)
    (hb : ∀ d, s.pass c ≠ .blank d) : s.passes c = [(s, c)] := by
  rw [passes]
  split <;> simp_all

/-- The passes of a scan go over one text. -/
theorem text_of_mem_passes {q : Scope α × Cursor} (hq : q ∈ s.passes c) :
    q.2.text = c.text := by
  fun_induction passes s c with
  | case1 s c o l d h ih =>
    rcases List.mem_cons.mp hq with rfl | hq
    · rfl
    · exact (ih hq).trans (text_pass (by rw [h]; rfl))
  | case2 s c d h ih =>
    rcases List.mem_cons.mp hq with rfl | hq
    · rfl
    · exact (ih hq).trans (text_pass (by rw [h]; rfl))
  | case3 s c h1 h2 =>
    obtain rfl := List.mem_singleton.mp hq
    rfl

end Scope

namespace Frame

variable {f : Frame α} {c d : Cursor} {o : Operator} {l : Literal}

/-- **The passes of an evaluation**, scan by scan. -/
def passes (f : Frame α) (c : Cursor) : List (Scope α × Cursor) :=
  (f.visits c).flatMap fun v => v.1.passes v.2

theorem mem_passes_self (f : Frame α) (c : Cursor) : (f.scope, c) ∈ f.passes c := by
  have hself : (f.scope, c) ∈ f.scope.passes c := by
    rw [Scope.passes]
    split
    · exact List.mem_cons_self
    · exact List.mem_cons_self
    · exact List.mem_cons_self
  rw [passes, visits_eq]
  exact List.mem_append_left _ hself

/-- The pass that finds the end of the text is the last one. -/
theorem passes_of_ended (h : f.scope.pass c = .ended) : f.passes c = [(f.scope, c)] := by
  rw [passes, visits_eq, Scope.scan_of_ended h]
  dsimp only
  rw [if_neg (by simp), List.flatMap_singleton, Scope.passes_of_stop (by simp [h]) (by simp [h])]

theorem passes_of_opened (h : f.scope.pass c = .opened o d) :
    f.passes c
      = (f.scope, c) :: (passes { scope := .group } d
        ++ ((f.await o).attach (evaluateGroup (α := α) d).1).passes
          (evaluateGroup (α := α) d).2) := by
  rw [passes, visits_eq, Scope.scan_of_opened h]
  dsimp only
  rw [if_pos rfl, List.flatMap_cons, List.flatMap_append,
    Scope.passes_of_stop (by simp [h]) (by simp [h])]
  rfl

theorem passes_of_literal (h : f.scope.pass c = .literal o l d) :
    f.passes c = (f.scope, c) :: (f.push (l.term o)).passes d := by
  rw [passes, passes, visits_eq f c, visits_eq _ d, Scope.scan_of_literal h]
  dsimp only
  rw [List.flatMap_cons, List.flatMap_cons, Scope.passes_of_literal h]
  rfl

end Frame

end Passes

/-! ## Signs in a text -/

/-- **The passes that the evaluation of a text makes.** -/
def evaluationPasses (text : String) : List (Scope Float × Cursor) :=
  (evaluationStates text).flatMap fun m => m.top.scope.passes m.cursor

/-- They are the passes of the recursion. -/
theorem evaluationPasses_eq (text : String) :
    evaluationPasses text
      = Frame.passes { scope := .outermost } (.ofList (Text.strip text.toList)) := by
  unfold evaluationPasses evaluationStates Frame.passes
  rw [← Scope.map_focus_states, List.flatMap_map]
  rfl

/-- The evaluation goes over the text without the blanks around it. -/
theorem text_of_mem_evaluationPasses {text : String} {q : Scope Float × Cursor}
    (hq : q ∈ evaluationPasses text) : q.2.text = Text.strip text.toList := by
  obtain ⟨m, hm, hq⟩ := List.mem_flatMap.mp hq
  exact (Scope.text_of_mem_passes hq).trans (Machine.text_of_mem_states hm)

/-- **A literal begins with a sign** at a place of the text, which is counted
from behind the blanks: a pass of the evaluation reads a literal there, and
takes the plus or minus that stands there as its sign. -/
def TakesSignAt (text : String) (place : Nat) : Prop :=
  ∃ q ∈ evaluationPasses text, ∃ e, q.1.literalStart? q.2 = some e ∧ e.position = place
    ∧ e.peek (fun x => x == '-' || x == '+') = true

end Reckon
