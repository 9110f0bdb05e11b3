import Mathlib.Tactic.IntervalCases
import Reckon.Outcome
import Reckon.Proofs.Passes

/-!
# The brackets of an expression

Where an evaluation stops, and which of its groups found their closing
bracket, is a matter of the brackets alone: operators, literals and spaces
are passed over, whatever they are worth. `reach` follows the brackets of a
text. It stops at a character that no expression has and at a closing
bracket that nothing has opened, and it knows how many brackets are open
there.

The evaluation does not follow brackets. It scans scopes, each of which
stalls by itself, and notes in every group whether it was closed.
`Frame.reaches_evaluate` says that the two agree, for a scope that is
anywhere in a text. So a text is refused in strict mode exactly if `reach`
does not come to its end with nothing open, which is to say that the text is
not an expression: `tryEvaluate_strict`.
-/

namespace Reckon

/-! ## The characters of an expression -/

/-- **The characters that an expression is written in.** -/
def expressionChars : List Char :=
  [' ', '(', ')', '+', '-', '*', '/', '%', '^', '.',
    '0', '1', '2', '3', '4', '5', '6', '7', '8', '9']

/-- A character of an expression that is no bracket. -/
def isPlain (x : Char) : Bool :=
  x == ' ' || isNumeric x || (Operator.ofChar? x).isSome

theorem isPlain_of_isNumeric {x : Char} (h : isNumeric x = true) : isPlain x = true := by
  rw [isPlain, h, Bool.or_true, Bool.true_or]

theorem isPlain_of_ofChar? {x : Char} {o : Operator} (h : Operator.ofChar? x = some o) :
    isPlain x = true := by
  rw [isPlain, h, Option.isSome_some, Bool.or_true]

theorem ne_bracket_of_isPlain {x : Char} (h : isPlain x = true) : x ≠ '(' ∧ x ≠ ')' := by
  refine ⟨?_, ?_⟩
  · rintro rfl
    exact absurd h (by decide)
  · rintro rfl
    exact absurd h (by decide)

/-- The characters of a literal's run are characters of an expression. -/
theorem mem_expressionChars_of_isNumeric {x : Char} (h : isNumeric x = true) :
    x ∈ expressionChars := by
  obtain ⟨hlow, hhigh⟩ := toNat_of_isNumeric h
  rw [← Char.ofNat_toNat x]
  generalize x.toNat = n at hlow hhigh
  interval_cases n <;> decide

/-- **An expression is written in plain characters and brackets.** -/
theorem mem_expressionChars_iff {x : Char} :
    x ∈ expressionChars ↔ x = '(' ∨ x = ')' ∨ isPlain x = true := by
  constructor
  · intro h
    simp only [expressionChars, List.mem_cons, List.not_mem_nil, or_false] at h
    rcases h with rfl | rfl | rfl | rfl | rfl | rfl | rfl | rfl | rfl | rfl | rfl | rfl | rfl
      | rfl | rfl | rfl | rfl | rfl | rfl | rfl <;> decide
  · rintro (rfl | rfl | h)
    · decide
    · decide
    · rw [isPlain, Bool.or_eq_true, Bool.or_eq_true] at h
      rcases h with (h | h) | h
      · rw [beq_iff_eq] at h
        subst h
        decide
      · exact mem_expressionChars_of_isNumeric h
      · obtain ⟨o, ho⟩ := Option.isSome_iff_exists.mp h
        rw [← Operator.ofChar?_eq_some_iff.mp ho]
        cases o <;> decide

/-- **An expression**: a text in these characters whose brackets are
balanced. -/
structure IsExpression (s : List Char) : Prop where
  /-- It is written in the characters of an expression. -/
  chars : ∀ x ∈ s, x ∈ expressionChars
  /-- No beginning of it closes more than it opened. -/
  opened : ∀ p, p <+: s → p.count ')' ≤ p.count '('
  /-- All that is opened is closed. -/
  closed : s.count '(' = s.count ')'

/-! ## Following the brackets -/

/-- **Follows the brackets of a text**, of which `depth` are open: how many
are open where an evaluation has to stop, and the text from there on. -/
def reach (depth : Nat) : List Char → Nat × List Char
  | [] => (depth, [])
  | x :: s =>
    if x = '(' then reach (depth + 1) s
    else if x = ')' then
      match depth with
      | 0 => (0, x :: s)
      | depth + 1 => reach depth s
    else if isPlain x then reach depth s
    else (depth, x :: s)

@[simp] theorem reach_nil (d : Nat) : reach d [] = (d, []) := rfl

@[simp] theorem reach_openBracket (d : Nat) (s : List Char) :
    reach d ('(' :: s) = reach (d + 1) s := rfl

@[simp] theorem reach_zero_closeBracket (s : List Char) :
    reach 0 (')' :: s) = (0, ')' :: s) := rfl

@[simp] theorem reach_succ_closeBracket (d : Nat) (s : List Char) :
    reach (d + 1) (')' :: s) = reach d s := rfl

theorem reach_cons {x : Char} (ho : x ≠ '(') (hc : x ≠ ')') (d : Nat) (s : List Char) :
    reach d (x :: s) = if isPlain x then reach d s else (d, x :: s) := by
  conv_lhs => unfold reach
  rw [if_neg ho, if_neg hc]

theorem reach_plain {x : Char} (h : isPlain x = true) (d : Nat) (s : List Char) :
    reach d (x :: s) = reach d s := by
  obtain ⟨ho, hc⟩ := ne_bracket_of_isPlain h
  rw [reach_cons ho hc, if_pos h]

theorem reach_foreign {x : Char} (h : isPlain x = false) (ho : x ≠ '(') (hc : x ≠ ')')
    (d : Nat) (s : List Char) : reach d (x :: s) = (d, x :: s) := by
  rw [reach_cons ho hc, if_neg (Bool.not_eq_true _ ▸ h)]

/-- What is plain leads nowhere. -/
theorem reach_append {w : List Char} (h : ∀ x ∈ w, isPlain x = true) (d : Nat)
    (s : List Char) : reach d (w ++ s) = reach d s := by
  induction w with
  | nil => rfl
  | cons x w ih =>
    rw [List.cons_append, reach_plain (h x List.mem_cons_self),
      ih fun y hy => h y (List.mem_cons_of_mem _ hy)]

/-- **The characters of a text in turn**: it is over, or it begins with a
bracket, a plain character or a foreign one. -/
theorem charCases {motive : List Char → Prop} (nil : motive [])
    (openBracket : ∀ s, motive s → motive ('(' :: s))
    (closeBracket : ∀ s, motive s → motive (')' :: s))
    (plain : ∀ x s, isPlain x = true → motive s → motive (x :: s))
    (foreign : ∀ x s, isPlain x = false → x ≠ '(' → x ≠ ')' → motive (x :: s))
    (s : List Char) : motive s := by
  induction s with
  | nil => exact nil
  | cons x s ih =>
    by_cases ho : x = '('
    · subst ho
      exact openBracket s ih
    · by_cases hc : x = ')'
      · subst hc
        exact closeBracket s ih
      · cases hp : isPlain x with
        | true => exact plain x s hp ih
        | false => exact foreign x s hp ho hc

/-- **The brackets of one text after another**: they are followed through the
first one, and if they lead to its end, on in the second. -/
theorem reach_append_eq (d : Nat) (s z : List Char) :
    reach d (s ++ z)
      = if (reach d s).2 = [] then reach (reach d s).1 z
        else ((reach d s).1, (reach d s).2 ++ z) := by
  induction s using charCases generalizing d with
  | nil => rfl
  | openBracket s ih => exact ih (d + 1)
  | closeBracket s ih =>
    cases d with
    | zero => rfl
    | succ d => exact ih d
  | plain x s hx ih =>
    rw [List.cons_append, reach_plain hx, reach_plain hx]
    exact ih d
  | foreign x s hx ho hc =>
    rw [List.cons_append, reach_foreign hx ho hc, reach_foreign hx ho hc]
    rfl

/-- Where the brackets stop, they stop again. -/
theorem reach_reach (d : Nat) (s : List Char) :
    reach 0 (reach d s).2 = (0, (reach d s).2) := by
  induction s using charCases generalizing d with
  | nil => rfl
  | openBracket s ih => exact ih (d + 1)
  | closeBracket s ih =>
    cases d with
    | zero => rfl
    | succ d => exact ih d
  | plain x s hx ih =>
    rw [reach_plain hx]
    exact ih d
  | foreign x s hx ho hc => rw [reach_foreign hx ho hc, reach_foreign hx ho hc]

/-- **A bracket more**: the brackets are followed without it up to a closing
one that it is left to match, and on from there. -/
theorem reach_succ (d : Nat) (s : List Char) :
    reach (d + 1) s
      = if (reach d s).2.head? = some ')' then reach 0 (reach d s).2.tail
        else ((reach d s).1 + 1, (reach d s).2) := by
  induction s using charCases generalizing d with
  | nil => rfl
  | openBracket s ih => exact ih (d + 1)
  | closeBracket s ih =>
    cases d with
    | zero => rfl
    | succ d => exact ih d
  | plain x s hx ih =>
    rw [reach_plain hx, reach_plain hx]
    exact ih d
  | foreign x s hx ho hc =>
    rw [reach_foreign hx ho hc, reach_foreign hx ho hc, if_neg]
    exact fun h => hc (Option.some.inj h)

/-- A closing bracket stops only where none is open. -/
theorem reach_fst_of_closeBracket {d : Nat} {s : List Char}
    (h : (reach d s).2.head? = some ')') : (reach d s).1 = 0 := by
  induction s using charCases generalizing d with
  | nil => exact absurd h (by simp)
  | openBracket s ih => exact ih h
  | closeBracket s ih =>
    cases d with
    | zero => rfl
    | succ d => exact ih h
  | plain x s hx ih =>
    rw [reach_plain hx] at h ⊢
    exact ih h
  | foreign x s hx ho hc =>
    rw [reach_foreign hx ho hc] at h
    exact absurd (Option.some.inj h) hc

/-! ## Following the brackets to the end -/

/-- No beginning of the text closes more brackets than it opens, if `depth`
are open before it. -/
def StaysOpen (depth : Nat) (s : List Char) : Prop :=
  ∀ p, p <+: s → p.count ')' ≤ depth + p.count '('

theorem staysOpen_cons_iff {d : Nat} {x : Char} {s : List Char} :
    StaysOpen d (x :: s)
      ↔ ∀ p, p <+: s → (x :: p).count ')' ≤ d + (x :: p).count '(' := by
  constructor
  · intro h p hp
    exact h _ (List.prefix_cons_iff.mpr (.inr ⟨p, rfl, hp⟩))
  · intro h p hp
    rcases List.prefix_cons_iff.mp hp with rfl | ⟨q, rfl, hq⟩
    · simp
    · exact h q hq

theorem staysOpen_openBracket_iff {d : Nat} {s : List Char} :
    StaysOpen d ('(' :: s) ↔ StaysOpen (d + 1) s := by
  rw [staysOpen_cons_iff]
  refine forall₂_congr fun p _ => ?_
  rw [List.count_cons_of_ne (by decide), List.count_cons_self]
  omega

theorem not_staysOpen_zero_closeBracket {s : List Char} : ¬ StaysOpen 0 (')' :: s) := by
  intro h
  exact absurd (h [')'] ⟨s, rfl⟩) (by decide)

theorem staysOpen_succ_closeBracket_iff {d : Nat} {s : List Char} :
    StaysOpen (d + 1) (')' :: s) ↔ StaysOpen d s := by
  rw [staysOpen_cons_iff]
  refine forall₂_congr fun p _ => ?_
  rw [List.count_cons_self, List.count_cons_of_ne (by decide)]
  omega

theorem staysOpen_plain_iff {d : Nat} {x : Char} {s : List Char} (h : isPlain x = true) :
    StaysOpen d (x :: s) ↔ StaysOpen d s := by
  obtain ⟨ho, hc⟩ := ne_bracket_of_isPlain h
  rw [staysOpen_cons_iff]
  refine forall₂_congr fun p _ => ?_
  rw [List.count_cons_of_ne hc, List.count_cons_of_ne ho]

/-- **The brackets lead to the end** of the texts that are written in the
right characters and stay open, and the count says how many are open
there. -/
theorem reach_eq_nil_iff {d e : Nat} {s : List Char} :
    reach d s = (e, [])
      ↔ (∀ x ∈ s, x ∈ expressionChars) ∧ StaysOpen d s
        ∧ d + s.count '(' = e + s.count ')' := by
  induction s using charCases generalizing d with
  | nil => simp [StaysOpen]
  | openBracket s ih =>
    rw [reach_openBracket, ih, staysOpen_openBracket_iff, List.forall_mem_cons,
      List.count_cons_self, List.count_cons_of_ne (by decide), ← Nat.add_assoc,
      Nat.add_right_comm]
    simp [mem_expressionChars_iff]
  | closeBracket s ih =>
    cases d with
    | zero => simp [not_staysOpen_zero_closeBracket]
    | succ d =>
      rw [reach_succ_closeBracket, ih, staysOpen_succ_closeBracket_iff, List.forall_mem_cons,
        List.count_cons_self, List.count_cons_of_ne (by decide), ← Nat.add_assoc,
        Nat.add_right_comm, Nat.add_right_cancel_iff]
      simp [mem_expressionChars_iff]
  | plain x s hx ih =>
    obtain ⟨ho, hc⟩ := ne_bracket_of_isPlain hx
    rw [reach_plain hx, ih, staysOpen_plain_iff hx, List.forall_mem_cons,
      List.count_cons_of_ne ho, List.count_cons_of_ne hc]
    simp [mem_expressionChars_iff, hx]
  | foreign x s hx ho hc =>
    rw [reach_foreign hx ho hc]
    simp [mem_expressionChars_iff, hx, ho, hc]

/-- **An expression is a text whose brackets lead to its end** and leave
nothing open. -/
theorem isExpression_iff_reach {s : List Char} : IsExpression s ↔ reach 0 s = (0, []) := by
  rw [reach_eq_nil_iff]
  constructor
  · intro h
    refine ⟨h.chars, fun p hp => ?_, ?_⟩
    · rw [Nat.zero_add]
      exact h.opened p hp
    · rw [h.closed]
  · rintro ⟨hchars, hopen, hclosed⟩
    refine ⟨hchars, fun p hp => ?_, ?_⟩
    · have := hopen p hp
      rwa [Nat.zero_add] at this
    · rwa [Nat.zero_add, Nat.zero_add] at hclosed

namespace IsExpression

variable {t : List Char}

/-- The brackets of an expression leave open what was open before it. -/
theorem reach_eq (ht : IsExpression t) (d : Nat) : reach d t = (d, []) := by
  rw [reach_eq_nil_iff]
  refine ⟨ht.chars, fun p hp => ?_, ?_⟩
  · have := ht.opened p hp
    omega
  · rw [ht.closed]

/-- **An expression in a text** leads nowhere. -/
theorem reach_append (ht : IsExpression t) (d : Nat) (s : List Char) :
    reach d (t ++ s) = reach d s := by
  rw [reach_append_eq, ht.reach_eq, if_pos rfl]

end IsExpression

/-! ## What a pass takes from the text -/

/-- **Plain characters lead from one text to another**: they are before it,
and nothing else is. -/
def PlainTo (r s : List Char) : Prop :=
  ∃ w, (∀ x ∈ w, isPlain x = true) ∧ r = w ++ s

namespace PlainTo

variable {r s t : List Char}

theorem refl (r : List Char) : PlainTo r r :=
  ⟨[], by simp, rfl⟩

theorem trans (h : PlainTo r s) (h' : PlainTo s t) : PlainTo r t := by
  obtain ⟨w, hw, rfl⟩ := h
  obtain ⟨v, hv, rfl⟩ := h'
  refine ⟨w ++ v, fun x hx => ?_, (List.append_assoc w v t).symm⟩
  rcases List.mem_append.mp hx with hx | hx
  · exact hw x hx
  · exact hv x hx

theorem cons {x : Char} (hx : isPlain x = true) (h : PlainTo r s) : PlainTo (x :: r) s := by
  obtain ⟨w, hw, rfl⟩ := h
  exact ⟨x :: w, List.forall_mem_cons.mpr ⟨hx, hw⟩, rfl⟩

/-- A run of plain characters leads to what is behind it. -/
theorem dropWhile {p : Char → Bool} (hp : ∀ x, p x = true → isPlain x = true)
    (r : List Char) : PlainTo r (r.dropWhile p) :=
  ⟨r.takeWhile p, fun x hx => hp x (List.all_eq_true.mp List.all_takeWhile x hx),
    List.takeWhile_append_dropWhile.symm⟩

/-- The brackets do not see what is plain. -/
theorem reach_eq (h : PlainTo r s) (d : Nat) : reach d r = reach d s := by
  obtain ⟨w, hw, rfl⟩ := h
  exact reach_append hw d s

end PlainTo

theorem plainTo_skipSpaces (c : Cursor) : PlainTo c.rest (skipSpaces c).rest := by
  rw [rest_skipSpaces]
  refine PlainTo.dropWhile (fun x hx => ?_) _
  rw [isPlain, hx, Bool.true_or, Bool.true_or]

/-- **A literal is plain**: its sign is an operator's, and the rest of it
digits and points. -/
theorem Literal.plainTo_read (c : Cursor) : PlainTo c.rest (Literal.read c).2.rest := by
  have hrun (d : Cursor) : PlainTo d.rest (d.consumeWhile isNumeric).2.rest := by
    rw [Cursor.rest_consumeWhile]
    exact PlainTo.dropWhile (fun x => isPlain_of_isNumeric) _
  unfold Literal.read
  dsimp only
  split
  · rename_i h
    rw [Bool.or_eq_true] at h
    rcases h with h | h
    · rw [Cursor.rest_of_nextChar? (Cursor.nextChar?_of_peek h)]
      exact (hrun _).cons (by decide)
    · rw [Cursor.rest_of_nextChar? (Cursor.nextChar?_of_peek h)]
      exact (hrun _).cons (by decide)
  · exact hrun c

/-- **No scan goes on here**: the text is over, or it begins with a character
that is not plain, opens nothing and does not close the scope. -/
def Stops (closesGroup : Bool) (s : List Char) : Prop :=
  ∀ x, s.head? = some x → isPlain x = false ∧ x ≠ '(' ∧ (x = ')' → closesGroup = false)

/-- **What a pass takes, told by the text**: plain characters up to the
bracket that it takes, or up to what it leaves. -/
def Pass.Follows (closesGroup : Bool) (r : List Char) : Pass → Prop
  | .ended | .stalled => False
  | .closed d => closesGroup = true ∧ PlainTo r (')' :: d.rest)
  | .opened _ d => PlainTo r ('(' :: d.rest)
  | .literal _ _ d => PlainTo r d.rest
  | .blank d => PlainTo r d.rest ∧ Stops closesGroup d.rest

namespace Pass

/-- Plain characters before what a pass takes are taken as well. -/
theorem Follows.of_plainTo {b : Bool} {r s : List Char} {p : Pass} (hrs : PlainTo r s)
    (h : p.Follows b s) : p.Follows b r := by
  cases p with
  | ended => exact h
  | stalled => exact h
  | closed d => exact ⟨h.1, hrs.trans h.2⟩
  | opened o d => exact hrs.trans h
  | literal o l d => exact hrs.trans h
  | blank d => exact ⟨hrs.trans h.1, h.2⟩

theorem follows_operand (b : Bool) (o : Operator) (c : Cursor) :
    (operand o c).Follows b c.rest := by
  refine Follows.of_plainTo (plainTo_skipSpaces c) ?_
  unfold operand
  dsimp only
  split
  · rename_i h
    rw [Cursor.rest_of_nextChar? (Cursor.nextChar?_of_peek h)]
    exact PlainTo.refl _
  · exact Literal.plainTo_read _

/-- A blank pass stops where it is, if the next character is none that it
could take. -/
theorem follows_blank {b : Bool} {c : Cursor}
    (h : ∀ x, c.nextChar? = some x → isPlain x = false ∧ x ≠ '(' ∧ (x = ')' → b = false)) :
    (Pass.blank c).Follows b c.rest :=
  ⟨PlainTo.refl _, h⟩

theorem follows_take {b : Bool} {c : Cursor} (hc : c.nextChar? ≠ some ' ') :
    (take b c).Follows b c.rest := by
  cases h : c.nextChar? with
  | none =>
    rw [take_none h]
    exact follows_blank fun x hx => absurd (h.symm.trans hx) (by simp)
  | some x =>
    by_cases hopen : x = '('
    · subst hopen
      rw [take_openBracket b h, Cursor.rest_of_nextChar? h]
      exact PlainTo.refl _
    by_cases hclose : x = ')'
    · subst hclose
      rw [take_closeBracket b h]
      cases b with
      | false =>
        refine follows_blank fun y hy => ?_
        obtain rfl := Option.some.inj (h.symm.trans hy)
        exact ⟨by decide, hopen, fun _ => rfl⟩
      | true =>
        rw [Cursor.rest_of_nextChar? h]
        exact ⟨rfl, PlainTo.refl _⟩
    cases hop : Operator.ofChar? x with
    | some o =>
      rw [← Operator.ofChar?_eq_some_iff.mp hop] at h
      rw [take_operator b h]
      refine Follows.of_plainTo ?_ (follows_operand b o (c.skip 1))
      rw [Cursor.rest_of_nextChar? h]
      exact (PlainTo.refl _).cons (isPlain_of_ofChar? (Operator.ofChar?_symbol o))
    | none =>
      cases hnum : isNumeric x with
      | true =>
        rw [take_numeric b h hnum]
        exact Literal.plainTo_read c
      | false =>
        rw [take_foreign h hopen hclose hop hnum]
        refine follows_blank fun y hy => ?_
        obtain rfl := Option.some.inj (h.symm.trans hy)
        have hspace : x ≠ ' ' := fun hx => hc (hx ▸ h)
        refine ⟨?_, hopen, fun hx => absurd hx hclose⟩
        rw [isPlain, hop, hnum, beq_false_of_ne hspace]
        rfl

end Pass

namespace Scope

variable {α : Type} {s : Scope α} {c d : Cursor}

/-- **A pass goes by the text**: at its end there is nothing to take, a scope
stalls only if it has not grown, and else the pass takes what follows. -/
theorem follows_pass (s : Scope α) (c : Cursor) :
    (s.pass c = .ended ∧ c.rest = []) ∨ (s.pass c = .stalled ∧ s.grown = false)
      ∨ (s.pass c).Follows s.closesGroup c.rest := by
  rcases s.pass_cases c with h | ⟨h, _, hs⟩ | ⟨h, _⟩
  · exact .inl h
  · exact .inr (.inl ⟨h, hs⟩)
  · refine .inr (.inr ?_)
    rw [h]
    exact Pass.Follows.of_plainTo (plainTo_skipSpaces c)
      (Pass.follows_take (nextChar?_skipSpaces_ne c))

theorem rest_of_pass_ended (h : s.pass c = .ended) : c.rest = [] := by
  have hc := s.follows_pass c
  rw [h] at hc
  rcases hc with ⟨_, hc⟩ | ⟨hc, _⟩ | hc
  · exact hc
  · exact absurd hc (by simp)
  · exact hc.elim

theorem grown_of_pass_stalled (h : s.pass c = .stalled) : s.grown = false := by
  have hc := s.follows_pass c
  rw [h] at hc
  rcases hc with ⟨hc, _⟩ | ⟨_, hc⟩ | hc
  · exact absurd hc (by simp)
  · exact hc
  · exact hc.elim

theorem follows_of_pass {p : Pass} (h : s.pass c = p) (he : p ≠ .ended) (hs : p ≠ .stalled) :
    p.Follows s.closesGroup c.rest := by
  have hc := s.follows_pass c
  rw [h] at hc
  exact (hc.resolve_left fun hc => he hc.1).resolve_left fun hc => hs hc.1

theorem plainTo_of_pass_closed (h : s.pass c = .closed d) :
    s.closesGroup = true ∧ PlainTo c.rest (')' :: d.rest) :=
  follows_of_pass h (by simp) (by simp)

theorem plainTo_of_pass_opened {o : Operator} (h : s.pass c = .opened o d) :
    PlainTo c.rest ('(' :: d.rest) :=
  follows_of_pass h (by simp) (by simp)

theorem plainTo_of_pass_literal {o : Operator} {l : Literal} (h : s.pass c = .literal o l d) :
    PlainTo c.rest d.rest :=
  follows_of_pass h (by simp) (by simp)

theorem plainTo_of_pass_blank (h : s.pass c = .blank d) :
    PlainTo c.rest d.rest ∧ Stops s.closesGroup d.rest :=
  follows_of_pass h (by simp) (by simp)

end Scope

/-- Where no scan goes on the brackets stop. -/
theorem Stops.reach_eq {b : Bool} {s : List Char} (h : Stops b s) : reach 0 s = (0, s) := by
  cases s with
  | nil => rfl
  | cons x s =>
    obtain ⟨hp, ho, _⟩ := h x rfl
    by_cases hc : x = ')'
    · subst hc
      rfl
    · exact reach_foreign hp ho hc 0 s

/-! ## An evaluation follows the brackets -/

theorem Tree.areBalanced_append {α : Type} (ts us : List (Tree α)) :
    Tree.areBalanced (ts ++ us) = (Tree.areBalanced ts && Tree.areBalanced us) := by
  induction ts with
  | nil => rfl
  | cons t ts ih => rw [List.cons_append, areBalanced, areBalanced, ih, Bool.and_assoc]

theorem Tree.isBalanced_eq {α : Type} (t : Tree α) :
    t.isBalanced
      = ((!t.scope.closesGroup || t.scope.closed) && Tree.areBalanced t.groups) := by
  cases t
  rfl

/-- Does a scope end at a closing bracket, if the brackets stop before this
text? -/
def closesAt (closesGroup : Bool) (s : List Char) : Bool :=
  closesGroup && s.head? == some ')'

@[simp] theorem closesAt_nil (b : Bool) : closesAt b [] = false := by
  cases b <;> rfl

theorem Stops.closesAt_eq {b : Bool} {s : List Char} (h : Stops b s) :
    closesAt b s = false := by
  cases s with
  | nil => exact closesAt_nil b
  | cons x s =>
    by_cases hx : x = ')'
    · rw [(h x rfl).2.2 hx]
      rfl
    · show (b && x == ')') = false
      rw [beq_false_of_ne hx, Bool.and_false]

/-- **What the brackets decide of an evaluation**, once it is known where they
lead. -/
structure Reaches {α : Type} (f : Frame α) (w : Nat × List Char) (r : Tree α × Cursor) :
    Prop where
  /-- The scope stays what it is, a group or not. -/
  closesGroup : r.1.scope.closesGroup = f.scope.closesGroup
  /-- It is closed if the brackets stop at a closing one. -/
  closed : r.1.scope.closed = closesAt f.scope.closesGroup w.2
  /-- The evaluation stops where the brackets stop, or behind the bracket
  that closes the scope. -/
  rest : r.2.rest = if closesAt f.scope.closesGroup w.2 then w.2.tail else w.2
  /-- The groups have found their closing brackets if none is left open. -/
  groups : Tree.areBalanced r.1.groups = (Tree.areBalanced f.groups && w.1 == 0)

/-- Of a frame only its kind and its groups count. -/
theorem Reaches.of_frame {α : Type} {f g : Frame α} {w : Nat × List Char}
    {r : Tree α × Cursor} (h : Reaches g w r)
    (hgroup : g.scope.closesGroup = f.scope.closesGroup) (hgroups : g.groups = f.groups) :
    Reaches f w r := by
  obtain ⟨h1, h2, h3, h4⟩ := h
  rw [hgroup] at h1 h2 h3
  rw [hgroups] at h4
  exact ⟨h1, h2, h3, h4⟩

namespace Frame

variable {α : Type} [Arithmetic α]

/-- A scope that ends here reaches this place, if the brackets stop here. -/
theorem reaches_close {f g : Frame α} {c : Cursor} {s : List Char}
    (hgroup : g.scope.closesGroup = f.scope.closesGroup) (hgroups : g.groups = f.groups)
    (hclosed : g.scope.closed = closesAt f.scope.closesGroup s)
    (hrest : c.rest = if closesAt f.scope.closesGroup s then s.tail else s) :
    Reaches f (0, s) (g.close, c) where
  closesGroup := hgroup
  closed := hclosed
  rest := hrest
  groups := by
    show Tree.areBalanced g.groups = _
    rw [hgroups, beq_self_eq_true, Bool.and_true]

omit [Arithmetic α] in
/-- **A group is balanced** if its closing bracket was found and it left no
bracket open. -/
theorem isBalanced_of_reaches {w : Nat × List Char} {g : Tree α × Cursor}
    (h : Reaches { scope := .group } w g) :
    g.1.isBalanced = (closesAt true w.2 && w.1 == 0) := by
  rw [Tree.isBalanced_eq, h.closesGroup, h.closed, h.groups]
  rfl

/-- **A scope goes on behind a group** as if the group's brackets were its
own. -/
theorem reaches_attach {f : Frame α} {o : Operator} {s : List Char} {g r : Tree α × Cursor}
    (hg : Reaches { scope := .group } (reach 0 s) g)
    (hr : Reaches ((f.await o).attach g.1) (reach 0 g.2.rest) r) :
    Reaches f (reach 1 s) r := by
  have hgroups : Tree.areBalanced r.1.groups
      = (Tree.areBalanced f.groups && g.1.isBalanced && (reach 0 g.2.rest).1 == 0) := by
    rw [hr.groups]
    show (Tree.areBalanced (f.groups ++ [g.1]) && _) = _
    rw [Tree.areBalanced_append, Tree.areBalanced, Tree.areBalanced, Bool.and_true]
  rw [isBalanced_of_reaches hg] at hgroups
  have hrest := hg.rest
  rw [reach_succ]
  by_cases hs : (reach 0 s).2.head? = some ')'
  · -- the group is closed, and the scope goes on behind the bracket
    have hclose : closesAt true (reach 0 s).2 = true := by
      rw [closesAt, hs]
      rfl
    rw [show closesAt (Frame.scope { scope := Scope.group (α := α) }).closesGroup _ = true
      from hclose, if_pos rfl] at hrest
    rw [hclose, reach_fst_of_closeBracket hs, hrest, beq_self_eq_true, Bool.and_true,
      Bool.and_true] at hgroups
    rw [hrest] at hr
    rw [if_pos hs]
    exact ⟨hr.closesGroup, hr.closed, hr.rest, hgroups⟩
  · -- the group stalls, and the scope around it stalls at the same place
    have hopen : closesAt true (reach 0 s).2 = false := by
      rw [closesAt, Bool.true_and]
      exact beq_false_of_ne hs
    rw [show closesAt (Frame.scope { scope := Scope.group (α := α) }).closesGroup _ = false
      from hopen, if_neg Bool.false_ne_true] at hrest
    rw [hopen, Bool.false_and, Bool.and_false, Bool.false_and] at hgroups
    rw [hrest, reach_reach] at hr
    rw [if_neg hs]
    refine ⟨hr.closesGroup, hr.closed, hr.rest, hgroups.trans ?_⟩
    exact (Bool.and_false _).symm

/-- **An evaluation follows the brackets**, from any place of a text and in a
group as well as outside. -/
theorem reaches_evaluate (f : Frame α) (c : Cursor) (hclosed : f.scope.closed = false)
    (hgrown : f.scope.grown = true ∨ Stops f.scope.closesGroup c.rest) :
    Reaches f (reach 0 c.rest) (f.evaluate c) := by
  -- A scope that has not grown stalls in its next pass, whatever is there, so
  -- the brackets have to stop there too: that is what `hgrown` carries along.
  induction f, c using evaluate_induction with
  | ended f c h =>
    rw [evaluate_of_ended h, Scope.rest_of_pass_ended h, reach_nil]
    refine reaches_close rfl rfl ?_ ?_
    · rw [hclosed, closesAt_nil]
    · rw [Scope.rest_of_pass_ended h, closesAt_nil]
      rfl
  | stalled f c h =>
    have hstops := hgrown.resolve_left (Bool.eq_false_iff.mp (Scope.grown_of_pass_stalled h))
    rw [evaluate_of_stalled h, hstops.reach_eq]
    refine reaches_close rfl rfl ?_ ?_
    · rw [hclosed, hstops.closesAt_eq]
    · rw [hstops.closesAt_eq]
      rfl
  | closed f c d h =>
    obtain ⟨hgroup, htext⟩ := Scope.plainTo_of_pass_closed h
    rw [evaluate_of_closed h, htext.reach_eq]
    refine reaches_close rfl rfl ?_ ?_
    · rw [hgroup]
      rfl
    · rw [hgroup]
      rfl
  | opened f c o d h ihgroup ih =>
    have htext := Scope.plainTo_of_pass_opened h
    rw [evaluate_of_opened h, htext.reach_eq, reach_openBracket]
    exact reaches_attach (ihgroup rfl (.inl rfl)) (ih hclosed (.inl rfl))
  | literal f c o l d h ih =>
    have htext := Scope.plainTo_of_pass_literal h
    rw [evaluate_of_literal h, htext.reach_eq]
    exact (ih hclosed (.inl rfl)).of_frame rfl rfl
  | blank f c d h ih =>
    obtain ⟨htext, hstops⟩ := Scope.plainTo_of_pass_blank h
    rw [evaluate_of_blank h, htext.reach_eq]
    exact (ih hclosed (.inr hstops)).of_frame rfl rfl

end Frame

end Reckon
