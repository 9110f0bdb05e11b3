import Mathlib.Data.List.TakeWhile
import Reckon.Proofs.Brackets

/-!
# Evaluation as a reading of texts

Two evaluations that are to be compared run over different texts. Their
cursors stand at different places, one of them may still find a text where
the other is at its end, and a pass that takes nothing makes the next one
stall in one of them only. None of this is part of what is compared: the
value of a scope, and the text that it leaves.

`Reads` is the evaluation without it, a relation between the terms that a
scope has, the text ahead and the two results. It has one rule for each
thing that a text can begin with – a literal, a group, or nothing that the
scope could go on with – and `Piece.first` says which one that is. A text
is read in one way only (`Reads.unique`), and every evaluation is such a
reading (`Frame.reads_evaluate`), so that a reading of the one text that is
built by induction over the reading of the other says how the evaluations
of the two are related.
-/

namespace Reckon

/-! ## Spaces -/

/-- A text without the spaces before it. -/
def unspaced (s : List Char) : List Char :=
  s.dropWhile (· == ' ')

theorem head?_unspaced_ne (s : List Char) : (unspaced s).head? ≠ some ' ' := by
  intro h
  have hx := List.head?_dropWhile_not (· == ' ') s
  rw [show s.dropWhile (· == ' ') = unspaced s from rfl, h] at hx
  exact absurd hx (by decide)

theorem unspaced_of_head? {s : List Char} (h : s.head? ≠ some ' ') : unspaced s = s := by
  cases s with
  | nil => rfl
  | cons x s => exact List.dropWhile_cons_of_neg fun hx => h (congrArg some (beq_iff_eq.mp hx))

@[simp] theorem unspaced_unspaced (s : List Char) : unspaced (unspaced s) = unspaced s :=
  unspaced_of_head? (head?_unspaced_ne s)

theorem unspaced_append (s z : List Char) :
    unspaced (s ++ z) = if unspaced s = [] then unspaced z else unspaced s ++ z := by
  unfold unspaced
  rw [List.dropWhile_append]
  simp only [List.isEmpty_iff]

theorem unspaced_append_of_nil {s : List Char} (h : unspaced s = []) (z : List Char) :
    unspaced (s ++ z) = unspaced z := by
  rw [unspaced_append, if_pos h]

theorem unspaced_append_of_cons {s t : List Char} {x : Char} (h : unspaced s = x :: t)
    (z : List Char) : unspaced (s ++ z) = x :: (t ++ z) := by
  rw [unspaced_append, h]
  rfl

/-- Spaces in front of a text that has none there itself go by the front
alone. -/
theorem unspaced_append_of_head? (s : List Char) {z : List Char} (h : z.head? ≠ some ' ') :
    unspaced (s ++ z) = unspaced s ++ z := by
  rw [unspaced_append, unspaced_of_head? h]
  split
  · rename_i hs
    rw [hs]
    rfl
  · rfl

/-- Spaces in front of the first part do not count. -/
theorem unspaced_unspaced_append (s z : List Char) :
    unspaced (unspaced s ++ z) = unspaced (s ++ z) := by
  rw [unspaced_append, unspaced_append, unspaced_unspaced]

theorem plainTo_unspaced (s : List Char) : PlainTo s (unspaced s) := by
  refine PlainTo.dropWhile (fun x hx => ?_) s
  rw [isPlain, hx, Bool.true_or, Bool.true_or]

/-- The brackets do not see the spaces before a text. -/
theorem reach_congr {s t : List Char} (h : unspaced s = unspaced t) (d : Nat) :
    reach d s = reach d t := by
  rw [(plainTo_unspaced s).reach_eq, h, (plainTo_unspaced t).reach_eq]

/-! ## What a text begins with -/

/-- A text without the sign before it. -/
def unsigned (s : List Char) : List Char :=
  if s.head?.any (· == '-') || s.head?.any (· == '+') then s.drop 1 else s

/-- **The literal that a text begins with**, and what is behind it. -/
def Literal.split (s : List Char) : Literal × List Char :=
  (⟨s.head?.any (· == '-'), (unsigned s).takeWhile isNumeric⟩, (unsigned s).dropWhile isNumeric)

/-- A literal that is read at a cursor is split off the text there. -/
theorem Literal.read_eq_split (c : Cursor) :
    (Literal.read c).1 = (Literal.split c.rest).1
      ∧ (Literal.read c).2.rest = (Literal.split c.rest).2 := by
  have hrun : (if c.peek (· == '-') || c.peek (· == '+') then c.skip 1 else c).rest
      = unsigned c.rest := by
    unfold unsigned Cursor.peek Cursor.nextChar?
    split
    · rfl
    · rfl
  refine ⟨?_, ?_⟩
  · rw [split, ← hrun]
    rfl
  · rw [split, ← hrun]
    exact Cursor.rest_consumeWhile _ _

/-- **What a text begins with** for a scope that goes on there, with the text
behind it. Spaces do not count, neither before it nor behind. -/
inductive Piece where
  /-- A literal, with the operator before it. -/
  | literal (operator : Operator) (l : Literal) (rest : List Char)
  /-- A group, with the operator before its bracket. -/
  | group (operator : Operator) (rest : List Char)
  /-- Nothing that the scope could go on with. -/
  | stop

namespace Piece

/-- Changes the text behind the piece. -/
def map (f : List Char → List Char) : Piece → Piece
  | literal o l rest => literal o l (f rest)
  | group o rest => group o (f rest)
  | stop => stop

section Map

variable {f : List Char → List Char} {p : Piece} {o : Operator} {l : Literal} {t : List Char}

theorem map_eq_literal (h : p.map f = literal o l t) : ∃ u, p = literal o l u ∧ f u = t := by
  cases p with
  | literal o' l' u =>
    obtain ⟨rfl, rfl, rfl⟩ := literal.inj h
    exact ⟨u, rfl, rfl⟩
  | group o' u => exact Piece.noConfusion h
  | stop => exact Piece.noConfusion h

theorem map_eq_group (h : p.map f = group o t) : ∃ u, p = group o u ∧ f u = t := by
  cases p with
  | literal o' l' u => exact Piece.noConfusion h
  | group o' u =>
    obtain ⟨rfl, rfl⟩ := group.inj h
    exact ⟨u, rfl, rfl⟩
  | stop => exact Piece.noConfusion h

theorem map_eq_stop (h : p.map f = stop) : p = stop := by
  cases p with
  | literal o' l' u => exact Piece.noConfusion h
  | group o' u => exact Piece.noConfusion h
  | stop => rfl

end Map

/-- What there is behind an operator. -/
def operand (o : Operator) (s : List Char) : Piece :=
  if (unspaced s).head? = some '(' then group o (unspaced (unspaced s).tail)
  else literal o (Literal.split (unspaced s)).1 (unspaced (Literal.split (unspaced s)).2)

/-- **The first piece of a text.** -/
def first (s : List Char) : Piece :=
  match unspaced s with
  | [] => stop
  | x :: t =>
    if x = '(' then group .add (unspaced t)
    else
      match Operator.ofChar? x with
      | some o => operand o t
      | none =>
        if isNumeric x then
          literal .add (Literal.split (x :: t)).1 (unspaced (Literal.split (x :: t)).2)
        else stop

theorem first_unspaced (s : List Char) : first (unspaced s) = first s := by
  unfold first
  rw [unspaced_unspaced]

/-- Spaces before a text do not change its first piece. -/
theorem first_congr {s t : List Char} (h : unspaced s = unspaced t) : first s = first t := by
  rw [first, h, first]

/-- A text with a piece is not blank. -/
theorem unspaced_ne_nil {s : List Char} (h : first s ≠ stop) : unspaced s ≠ [] := by
  intro hs
  refine h ?_
  rw [first, hs]

end Piece

/-- What a scope leaves of a text that it does not go on in: the text from
its first character on, or from behind the bracket that closes the scope. -/
def leftBehind (closesGroup : Bool) (s : List Char) : List Char :=
  if closesAt closesGroup (unspaced s) then (unspaced s).tail else unspaced s

@[simp] theorem leftBehind_nil (b : Bool) : leftBehind b [] = [] := by
  unfold leftBehind
  split <;> rfl

/-- A group passes the bracket that closes it. -/
theorem leftBehind_of_closeBracket {s t : List Char} (h : unspaced s = ')' :: t) :
    leftBehind true s = t := by
  rw [leftBehind, h]
  rfl

theorem leftBehind_unspaced (b : Bool) (s : List Char) :
    leftBehind b (unspaced s) = leftBehind b s := by
  unfold leftBehind
  rw [unspaced_unspaced]

/-- An opening bracket is left where it is. -/
theorem leftBehind_append_openBracket (b : Bool) (s y : List Char) :
    leftBehind b (s ++ '(' :: y) = leftBehind b s ++ '(' :: y := by
  unfold leftBehind
  rw [unspaced_append_of_head? s (by simp)]
  cases unspaced s with
  | nil =>
    have hclose : closesAt b ('(' :: y) = false := by cases b <;> rfl
    rw [List.nil_append, hclose, closesAt_nil]
    rfl
  | cons x t =>
    show (if closesAt b (x :: t) then _ else _) = _
    split
    · rfl
    · rfl

/-- What a scope leaves of a text that has more behind it. -/
theorem leftBehind_append {p : List Char} (hp : unspaced p ≠ []) (b : Bool) (z : List Char) :
    leftBehind b (p ++ z) = leftBehind b p ++ z := by
  obtain ⟨x, t, ht⟩ := List.exists_cons_of_ne_nil hp
  unfold leftBehind
  rw [unspaced_append_of_cons ht, ht]
  show (if closesAt b (x :: t) then _ else _) = _
  split
  · rfl
  · rfl

theorem leftBehind_suffix (b : Bool) (p : List Char) : leftBehind b p <:+ p := by
  unfold leftBehind
  split
  · exact (List.tail_suffix _).trans (List.dropWhile_suffix _)
  · exact List.dropWhile_suffix _

/-! ## A pass takes the first piece -/

/-- **A pass takes the first piece of the text**, or it stops as the scope
does. -/
def Pass.TakesFirst (closesGroup : Bool) (s : List Char) : Pass → Prop
  | .ended | .stalled => False
  | .closed d | .blank d => Piece.first s = .stop ∧ d.rest = leftBehind closesGroup s
  | .opened o d => Piece.first s = .group o (unspaced d.rest)
  | .literal o l d => Piece.first s = .literal o l (unspaced d.rest)

namespace Pass

theorem takesFirst_operand {b : Bool} {o : Operator} {c : Cursor} {s : List Char}
    (h : Piece.first s = Piece.operand o c.rest) : (operand o c).TakesFirst b s := by
  have hrest : (skipSpaces c).rest = unspaced c.rest := rest_skipSpaces c
  unfold operand
  dsimp only
  rw [Piece.operand, ← hrest] at h
  split
  · rename_i hopen
    have hhead : (skipSpaces c).rest.head? = some '(' := Cursor.nextChar?_of_peek hopen
    rw [if_pos hhead] at h
    rw [TakesFirst, h, Cursor.rest_skip, List.drop_one]
  · rename_i hopen
    obtain ⟨hliteral, hleft⟩ := Literal.read_eq_split (skipSpaces c)
    rw [if_neg] at h
    · rw [TakesFirst, h, hliteral, hleft]
    · intro hhead
      exact hopen (Cursor.peek_eq hhead _)

/-- Nothing is taken before a foreign character. -/
theorem takesFirst_blank {b : Bool} {c : Cursor} (hfirst : Piece.first c.rest = .stop)
    (hrest : unspaced c.rest = c.rest) (hclose : closesAt b c.rest = false) :
    (blank c).TakesFirst b c.rest := by
  refine ⟨hfirst, ?_⟩
  rw [leftBehind, hrest, hclose]
  rfl

theorem takesFirst_take (b : Bool) {c : Cursor} (hc : c.nextChar? ≠ some ' ') :
    (take b c).TakesFirst b c.rest := by
  have hrest : unspaced c.rest = c.rest := unspaced_of_head? hc
  cases h : c.nextChar? with
  | none =>
    have hnil : c.rest = [] := List.head?_eq_none_iff.mp h
    rw [take_none h]
    refine takesFirst_blank ?_ hrest ?_
    · rw [hnil]
      rfl
    · rw [hnil, closesAt_nil]
  | some x =>
    have hcons := Cursor.rest_of_nextChar? h
    have hfirst : Piece.first c.rest
        = if x = '(' then Piece.group .add (unspaced (c.skip 1).rest)
          else match Operator.ofChar? x with
            | some o => Piece.operand o (c.skip 1).rest
            | none =>
              if isNumeric x then
                Piece.literal .add (Literal.split c.rest).1 (unspaced (Literal.split c.rest).2)
              else .stop := by
      rw [Piece.first, hrest, hcons]
    by_cases hopen : x = '('
    · rw [if_pos hopen] at hfirst
      subst hopen
      rw [take_openBracket b h]
      exact hfirst
    rw [if_neg hopen] at hfirst
    cases hop : Operator.ofChar? x with
    | some o =>
      rw [hop] at hfirst
      rw [← Operator.ofChar?_eq_some_iff.mp hop] at h
      rw [take_operator b h]
      exact takesFirst_operand hfirst
    | none =>
      rw [hop] at hfirst
      cases hnum : isNumeric x with
      | true =>
        obtain ⟨hliteral, hleft⟩ := Literal.read_eq_split c
        rw [take_numeric b h hnum]
        rw [hnum] at hfirst
        show Piece.first c.rest = _
        rw [hliteral, hleft]
        exact hfirst
      | false =>
        rw [hnum] at hfirst
        by_cases hclose : x = ')'
        · subst hclose
          rw [take_closeBracket b h]
          cases b with
          | true =>
            refine ⟨hfirst, ?_⟩
            rw [leftBehind, hrest, hcons]
            rfl
          | false => exact takesFirst_blank hfirst hrest rfl
        · rw [take_foreign h hopen hclose hop hnum]
          refine takesFirst_blank hfirst hrest ?_
          rw [closesAt, hcons, List.head?_cons, Option.some_beq_some, beq_false_of_ne hclose,
            Bool.and_false]

end Pass

namespace Scope

variable {α : Type} {s : Scope α} {c : Cursor}

/-- **A pass of a scope that has grown takes the first piece**, if there is
any text. -/
theorem takesFirst_pass (hc : c.rest ≠ []) (hs : s.grown = true) :
    (s.pass c).TakesFirst s.closesGroup c.rest := by
  have h := Pass.takesFirst_take s.closesGroup (nextChar?_skipSpaces_ne c)
  have hrest : (skipSpaces c).rest = unspaced c.rest := rest_skipSpaces c
  rw [pass_of_grown hc hs]
  generalize Pass.take s.closesGroup (skipSpaces c) = p at h ⊢
  rw [hrest] at h
  cases p with
  | ended => exact h
  | stalled => exact h
  | closed d =>
    rw [Pass.TakesFirst, Piece.first_unspaced, leftBehind_unspaced] at h
    exact h
  | opened o d => exact (Piece.first_unspaced _).symm.trans h
  | literal o l d => exact (Piece.first_unspaced _).symm.trans h
  | blank d =>
    rw [Pass.TakesFirst, Piece.first_unspaced, leftBehind_unspaced] at h
    exact h

/-- What a pass takes if it neither ended nor stalled. -/
theorem takesFirst_of_pass {p : Pass} (h : s.pass c = p) (he : p ≠ .ended)
    (hs : p ≠ .stalled) : p.TakesFirst s.closesGroup c.rest := by
  rw [← h] at he hs ⊢
  rcases s.pass_cases c with ⟨h', _⟩ | ⟨h', _⟩ | ⟨_, hc, hgrown⟩
  · exact absurd h' he
  · exact absurd h' hs
  · exact takesFirst_pass hc hgrown

end Scope

/-! ## The brackets of a piece -/

/-- A literal that is split off a text is plain. -/
theorem Literal.plainTo_split (s : List Char) : PlainTo s (Literal.split s).2 := by
  have h := Literal.plainTo_read (.ofList s)
  rwa [(Literal.read_eq_split _).2] at h

namespace Piece

/-- **What the first piece is, told by the text**: plain characters up to
what is behind it or up to its bracket, or a character behind the spaces
that is neither. -/
def Follows (s : List Char) : Piece → Prop
  | literal _ _ t => PlainTo s t
  | group _ t => ∃ u, PlainTo s ('(' :: u) ∧ t = unspaced u
  | stop => ∀ x, (unspaced s).head? = some x → isPlain x = false ∧ x ≠ '('

theorem follows_literal {s t : List Char} {o : Operator} {l : Literal}
    (h : PlainTo s t) : (literal o l (unspaced t)).Follows s :=
  h.trans (plainTo_unspaced t)

theorem follows_operand {r s : List Char} {o : Operator} (h : PlainTo r s) :
    (operand o s).Follows r := by
  have hs := h.trans (plainTo_unspaced s)
  unfold operand
  split
  · rename_i hopen
    obtain ⟨t, ht⟩ := List.head?_eq_some_iff.mp hopen
    rw [ht] at hs ⊢
    exact ⟨t, hs, rfl⟩
  · exact follows_literal (hs.trans (Literal.plainTo_split _))

theorem follows_first (s : List Char) : (first s).Follows s := by
  have hs := plainTo_unspaced s
  unfold first
  split
  · rename_i hnil
    intro x hx
    rw [hnil] at hx
    exact absurd hx.symm (Option.some_ne_none x)
  · rename_i x t hcons
    rw [hcons] at hs
    split
    · rename_i hopen
      rw [hopen] at hs
      exact ⟨t, hs, rfl⟩
    · rename_i hopen
      split
      · rename_i o hop
        exact follows_operand (hs.trans ((PlainTo.refl t).cons (isPlain_of_ofChar? hop)))
      · rename_i hop
        split
        · exact follows_literal (hs.trans (Literal.plainTo_split _))
        · rename_i hnum
          intro y hy
          have hspace := head?_unspaced_ne s
          rw [hcons] at hy hspace
          obtain rfl := Option.some.inj hy
          refine ⟨?_, hopen⟩
          rw [isPlain, hop, Bool.eq_false_iff.mpr hnum,
            beq_false_of_ne fun h => hspace (congrArg some h)]
          rfl

variable {s t : List Char} {o : Operator} {l : Literal}

/-- A literal has no brackets. -/
theorem reach_of_first_literal (h : first s = .literal o l t) (d : Nat) :
    reach d s = reach d t := by
  have hs := follows_first s
  rw [h] at hs
  exact hs.reach_eq d

/-- A group opens a bracket. -/
theorem reach_of_first_group (h : first s = .group o t) (d : Nat) :
    reach d s = reach (d + 1) t := by
  have hs := follows_first s
  rw [h] at hs
  obtain ⟨u, hu, rfl⟩ := hs
  rw [hu.reach_eq, reach_openBracket, (plainTo_unspaced u).reach_eq]

/-- What is left behind the first piece of a text is an end of it. -/
theorem suffix_of_first_literal {s t : List Char} {o : Operator} {l : Literal}
    (h : first s = literal o l t) : t <:+ s := by
  have hfollows := follows_first s
  rw [h] at hfollows
  obtain ⟨w, _, rfl⟩ := hfollows
  exact List.suffix_append w t

theorem suffix_of_first_group {s t : List Char} {o : Operator} (h : first s = group o t) :
    t <:+ s := by
  have hfollows := follows_first s
  rw [h] at hfollows
  obtain ⟨u, ⟨w, _, rfl⟩, rfl⟩ := hfollows
  exact ((List.dropWhile_suffix _).trans (List.suffix_cons '(' u)).trans (List.suffix_append w _)

end Piece

/-! ## The first piece of a longer text -/

/-- **A run ends with the text that it begins in**, if it does not go on behind
it. -/
theorem numericRun_append {s z : List Char}
    (h : (∀ x ∈ s, isNumeric x = true) → ∀ x ∈ z.head?, isNumeric x = false) :
    (s ++ z).takeWhile isNumeric = s.takeWhile isNumeric
      ∧ (s ++ z).dropWhile isNumeric = s.dropWhile isNumeric ++ z := by
  rw [List.takeWhile_append, List.dropWhile_append]
  by_cases hs : ∀ x ∈ s, isNumeric x = true
  · have hz : z.takeWhile isNumeric = [] ∧ z.dropWhile isNumeric = z := by
      cases z with
      | nil => exact ⟨rfl, rfl⟩
      | cons x z =>
        have hx : ¬ isNumeric x = true := Bool.eq_false_iff.mp (h hs x rfl)
        exact ⟨List.takeWhile_cons_of_neg hx, List.dropWhile_cons_of_neg hx⟩
    rw [List.takeWhile_eq_self_iff.mpr hs, List.dropWhile_eq_nil_iff.mpr hs, hz.1, hz.2,
      if_pos rfl, List.append_nil]
    exact ⟨rfl, rfl⟩
  · have hdrop : s.dropWhile isNumeric ≠ [] := fun h => hs (List.dropWhile_eq_nil_iff.mp h)
    refine ⟨if_neg fun hlength => hs ?_, if_neg fun h => hdrop (List.isEmpty_iff.mp h)⟩
    exact List.takeWhile_eq_self_iff.mp ((List.takeWhile_prefix _).eq_of_length hlength)

/-- **A text that a literal does not go on into**: it is over, or it begins
with a character that is neither a sign nor numeric. -/
def EndsLiteral (z : List Char) : Prop :=
  ∀ x ∈ z.head?, x ≠ '-' ∧ x ≠ '+' ∧ isNumeric x = false

namespace EndsLiteral

variable {z : List Char}

/-- The run of a literal ends with the text before. -/
theorem takeWhile_append (h : EndsLiteral z) (s : List Char) :
    (s ++ z).takeWhile isNumeric = s.takeWhile isNumeric
      ∧ (s ++ z).dropWhile isNumeric = s.dropWhile isNumeric ++ z :=
  numericRun_append fun _ x hx => (h x hx).2.2

/-- The sign of a literal is in the text before. -/
theorem any_head?_append (h : EndsLiteral z) {x : Char} (hx : x = '-' ∨ x = '+')
    (s : List Char) : (s ++ z).head?.any (· == x) = s.head?.any (· == x) := by
  cases s with
  | nil =>
    cases z with
    | nil => rfl
    | cons y z =>
      refine beq_false_of_ne ?_
      rintro rfl
      exact hx.elim (h y rfl).1 (h y rfl).2.1
  | cons y s => rfl

theorem unsigned_append (h : EndsLiteral z) (s : List Char) :
    unsigned (s ++ z) = unsigned s ++ z := by
  rw [unsigned, h.any_head?_append (.inl rfl), h.any_head?_append (.inr rfl), unsigned]
  cases s with
  | nil => rfl
  | cons x s =>
    split
    · rfl
    · rfl

/-- **A literal is split off as if the text were over.** -/
theorem split_append (h : EndsLiteral z) (s : List Char) :
    (Literal.split (s ++ z)).1 = (Literal.split s).1
      ∧ (Literal.split (s ++ z)).2 = (Literal.split s).2 ++ z := by
  obtain ⟨htake, hdrop⟩ := h.takeWhile_append (unsigned s)
  unfold Literal.split
  rw [h.unsigned_append, h.any_head?_append (.inl rfl), htake, hdrop]
  exact ⟨rfl, rfl⟩

end EndsLiteral

/-- **A text that no plain characters go on into**: it is over, or it begins
with a bracket or a foreign character. -/
def EndsPlain (z : List Char) : Prop :=
  ∀ x ∈ z.head?, isPlain x = false

theorem EndsPlain.endsLiteral {z : List Char} (h : EndsPlain z) : EndsLiteral z := by
  intro x hx
  have hplain := h x hx
  refine ⟨?_, ?_, ?_⟩
  · rintro rfl
    exact absurd hplain (by decide)
  · rintro rfl
    exact absurd hplain (by decide)
  · rw [isPlain, Bool.or_eq_false_iff, Bool.or_eq_false_iff] at hplain
    exact hplain.1.2

/-- Spaces in front of such a text end a literal as well. -/
theorem EndsPlain.endsLiteral_of_unspaced {z : List Char} (h : EndsPlain (unspaced z)) :
    EndsLiteral z := by
  by_cases hz : z.head? = some ' '
  · intro x hx
    obtain rfl := Option.some.inj (hz.symm.trans hx)
    decide
  · rw [← unspaced_of_head? hz]
    exact h.endsLiteral

namespace Piece

/-- **The operator of a group that opens right behind a text**, if one can
open there as its first piece: behind nothing but spaces, or behind an
operator that has no operand yet. -/
def awaited (s : List Char) : Option Operator :=
  match unspaced s with
  | [] => some .add
  | x :: t => if unspaced t = [] then Operator.ofChar? x else none

/-- A group that is awaited opens. -/
theorem first_append_openBracket {s : List Char} {o : Operator} (h : awaited s = some o)
    (y : List Char) : first (s ++ '(' :: y) = group o (unspaced y) := by
  have hopen (u : List Char) : unspaced (u ++ '(' :: y) = unspaced u ++ '(' :: y :=
    unspaced_append_of_head? u (by simp)
  unfold awaited at h
  unfold first
  rw [hopen]
  split at h
  · rename_i hs
    obtain rfl := Option.some.inj h
    rw [hs]
    rfl
  · rename_i x t hs
    split at h
    · rename_i ht
      have hx : x ≠ '(' := (ne_bracket_of_isPlain (isPlain_of_ofChar? h)).1
      rw [hs]
      show (if x = '(' then _ else _) = _
      rw [if_neg hx, h]
      show operand o (t ++ '(' :: y) = _
      rw [operand, hopen, ht]
      rfl
    · exact absurd h.symm (Option.some_ne_none o)

/-- What is behind an operand does not change it. -/
theorem operand_append {t z : List Char} (o : Operator) (hz : EndsPlain (unspaced z))
    (hgroup : (unspaced z).head? = some '(' → unspaced t ≠ []) :
    operand o (t ++ z) = (operand o t).map fun r => unspaced (r ++ z) := by
  unfold operand
  cases ht : unspaced t with
  | nil =>
    have hopen : (unspaced z).head? ≠ some '(' := fun h => hgroup h ht
    obtain ⟨hliteral, hleft⟩ := hz.endsLiteral.split_append []
    rw [List.nil_append] at hliteral hleft
    rw [unspaced_append_of_nil ht, if_neg hopen, if_neg (by simp), hliteral, hleft]
    show literal o _ (unspaced (unspaced z)) = literal o _ (unspaced z)
    rw [unspaced_unspaced]
  | cons x u =>
    obtain ⟨hliteral, hleft⟩ := hz.endsLiteral_of_unspaced.split_append (x :: u)
    rw [unspaced_append_of_cons ht, List.head?_cons, List.head?_cons]
    split
    · exact congrArg (group o) (unspaced_unspaced_append u z).symm
    · rw [← List.cons_append, hliteral, hleft]
      exact congrArg (literal o _) (unspaced_unspaced_append _ z).symm

/-- A scope stops before a text that plain characters do not go on into and
that opens no group. -/
theorem first_of_endsPlain {z : List Char} (hz : EndsPlain (unspaced z))
    (hopen : (unspaced z).head? ≠ some '(') : first z = stop := by
  unfold first
  split
  · rfl
  · rename_i x t hcons
    rw [hcons] at hz hopen
    have hplain := hz x rfl
    rw [isPlain, Bool.or_eq_false_iff, Bool.or_eq_false_iff] at hplain
    rw [if_neg fun hx => hopen (congrArg some hx), Option.not_isSome_iff_eq_none.mp
      (Bool.eq_false_iff.mp hplain.2), hplain.1.2]
    rfl

/-- **What is behind a text does not change its first piece**, if plain
characters do not go on into it and it is no group that is awaited. -/
theorem first_append {s z : List Char} (hz : EndsPlain (unspaced z))
    (hgroup : (unspaced z).head? = some '(' → awaited s = none) :
    first (s ++ z) = (first s).map fun t => unspaced (t ++ z) := by
  cases hs : unspaced s with
  | nil =>
    have hawaited : awaited s = some .add := by rw [awaited, hs]
    have hopen : (unspaced z).head? ≠ some '(' := fun h =>
      Option.some_ne_none _ (hawaited.symm.trans (hgroup h))
    have hwhole : unspaced (s ++ z) = unspaced z := unspaced_append_of_nil hs z
    have hfirst : first s = stop := by rw [first, hs]
    rw [hfirst]
    exact first_of_endsPlain (hwhole ▸ hz) (hwhole ▸ hopen)
  | cons x t =>
    unfold first
    rw [unspaced_append_of_cons hs, hs]
    dsimp only
    by_cases hx : x = '('
    · rw [if_pos hx, if_pos hx]
      exact congrArg (group .add) (unspaced_unspaced_append t z).symm
    rw [if_neg hx, if_neg hx]
    cases hop : Operator.ofChar? x with
    | some o =>
      refine operand_append o hz fun h ht => ?_
      have hawaited := hgroup h
      rw [awaited, hs] at hawaited
      dsimp only at hawaited
      rw [if_pos ht, hop] at hawaited
      exact Option.some_ne_none o hawaited
    | none =>
      dsimp only
      split
      · obtain ⟨hliteral, hleft⟩ := hz.endsLiteral_of_unspaced.split_append (x :: t)
        rw [← List.cons_append, hliteral, hleft]
        exact congrArg (literal .add _) (unspaced_unspaced_append _ z).symm
      · rfl

/-- **A group behind a text** is its first piece, whatever is in it, or comes
after the first piece. -/
theorem first_append_cases (s : List Char) :
    (∃ o, ∀ y, first (s ++ '(' :: y) = group o (unspaced y))
      ∨ ∀ y, first (s ++ '(' :: y) = (first s).map fun t => unspaced t ++ '(' :: y := by
  cases h : awaited s with
  | some o => exact .inl ⟨o, first_append_openBracket h⟩
  | none =>
    refine .inr fun y => ?_
    have hbracket : unspaced ('(' :: y) = '(' :: y := unspaced_of_head? (by simp)
    rw [first_append (hbracket ▸ by rintro x ⟨⟩; rfl) fun _ => h]
    refine congrArg (map · (first s)) (funext fun t => ?_)
    exact unspaced_append_of_head? t (by simp)

end Piece

/-- **The pieces of a text end in it**, also with this text behind it. -/
def KeepsPieces (p z : List Char) : Prop :=
  ∀ u, u <:+ p → unspaced u ≠ [] →
    Piece.first (u ++ z) = (Piece.first u).map fun t => unspaced (t ++ z)

theorem KeepsPieces.of_suffix {p u z : List Char} (h : KeepsPieces p z) (hu : u <:+ p) :
    KeepsPieces u z :=
  fun w hw => h w (hw.trans hu)

/-! ## Reading -/

section Reading

variable {α : Type} [Arithmetic α]

/-- The term that a group is, once it has a value. -/
def groupTerm (o : Operator) (value : α) : Term α where
  operator := some o
  value := some value
  node := some ()

/-- **The number that the terms of a scope come to.** -/
def resultOf (terms : List (Term α)) : α :=
  (reduce terms).value.getD Arithmetic.undefined

/-- **A scope reads a text**, from the terms that it has: a literal is a term
more and the scope goes on, a group is read first and is a term then, and
before anything else the scope ends. What it comes to is a number, and what
it leaves a text. -/
inductive Reads : Bool → List (Term α) → List Char → α → List Char → Prop where
  | literal {b : Bool} {terms : List (Term α)} {s t r : List Char} {o : Operator}
      {l : Literal} {v : α} :
      Piece.first s = .literal o l t → Reads b (terms ++ [l.term o]) t v r →
      Reads b terms s v r
  | group {b : Bool} {terms : List (Term α)} {s t m r : List Char} {o : Operator} {w v : α} :
      Piece.first s = .group o t → Reads true [] t w m →
      Reads b (terms ++ [groupTerm o w]) m v r → Reads b terms s v r
  | stop {b : Bool} {terms : List (Term α)} {s : List Char} :
      Piece.first s = .stop → Reads b terms s (resultOf terms) (leftBehind b s)

namespace Reads

variable {b : Bool} {terms : List (Term α)} {s r r' : List Char} {v v' : α}

/-- **A text is read in one way.** -/
theorem unique (h : Reads b terms s v r) (h' : Reads b terms s v' r') : v' = v ∧ r' = r := by
  induction h generalizing v' r' with
  | literal hfirst _ ih =>
    cases h' with
    | literal hfirst' h' =>
      obtain ⟨rfl, rfl, rfl⟩ := Piece.literal.inj (hfirst.symm.trans hfirst')
      exact ih h'
    | group hfirst' => exact Piece.noConfusion (hfirst.symm.trans hfirst')
    | stop hfirst' => exact Piece.noConfusion (hfirst.symm.trans hfirst')
  | group hfirst _ _ ihgroup ih =>
    cases h' with
    | literal hfirst' => exact Piece.noConfusion (hfirst.symm.trans hfirst')
    | group hfirst' hgroup' h' =>
      obtain ⟨rfl, rfl⟩ := Piece.group.inj (hfirst.symm.trans hfirst')
      obtain ⟨rfl, rfl⟩ := ihgroup hgroup'
      exact ih h'
    | stop hfirst' => exact Piece.noConfusion (hfirst.symm.trans hfirst')
  | stop hfirst =>
    cases h' with
    | literal hfirst' => exact Piece.noConfusion (hfirst.symm.trans hfirst')
    | group hfirst' => exact Piece.noConfusion (hfirst.symm.trans hfirst')
    | stop => exact ⟨rfl, rfl⟩

/-- **Spaces before a text do not count.** -/
theorem of_unspaced_eq {t : List Char} (h : Reads b terms s v r)
    (hst : unspaced s = unspaced t) : Reads b terms t v r := by
  have hfirst : Piece.first s = Piece.first t := Piece.first_congr hst
  have hleft : leftBehind b s = leftBehind b t := by rw [leftBehind, hst, leftBehind]
  cases h with
  | literal h h' => exact .literal (hfirst ▸ h) h'
  | group h hgroup h' => exact .group (hfirst ▸ h) hgroup h'
  | stop h =>
    rw [hleft]
    exact .stop (hfirst ▸ h)

theorem behind_spaces (h : Reads b terms s v r) : Reads b terms (unspaced s) v r :=
  h.of_unspaced_eq (unspaced_unspaced s).symm

/-- **A text that begins with the same piece** is read in the same way. -/
theorem of_first_eq {t : List Char} (h : Reads b terms s v r) (hgo : Piece.first s ≠ .stop)
    (hst : Piece.first t = Piece.first s) : Reads b terms t v r := by
  cases h with
  | literal hpiece h => exact .literal (hst.trans hpiece) h
  | group hpiece hgroup h => exact .group (hst.trans hpiece) hgroup h
  | stop hpiece => exact absurd hpiece hgo

/-- What a scope leaves is an end of the text. -/
theorem suffix (h : Reads b terms s v r) : r <:+ s := by
  induction h with
  | literal hpiece _ ih => exact ih.trans (Piece.suffix_of_first_literal hpiece)
  | group hpiece _ _ ihgroup ih =>
    exact (ih.trans ihgroup).trans (Piece.suffix_of_first_group hpiece)
  | stop => exact leftBehind_suffix _ _

end Reads

/-- **An evaluation reads the text at its cursor.** -/
theorem Frame.reads_evaluate (f : Frame α) (c : Cursor) (hf : f.scope.grown = true) :
    Reads f.scope.closesGroup f.scope.terms c.rest (f.evaluate c).1.number
      (f.evaluate c).2.rest := by
  induction f, c using evaluate_induction with
  | ended f c h =>
    rw [evaluate_of_ended h, Scope.rest_of_pass_ended h]
    nth_rewrite 2 [← leftBehind_nil f.scope.closesGroup]
    exact .stop rfl
  | stalled f c h =>
    exact absurd hf (Bool.eq_false_iff.mp (Scope.grown_of_pass_stalled h))
  | closed f c d h =>
    obtain ⟨hfirst, hrest⟩ := Scope.takesFirst_of_pass h Pass.noConfusion Pass.noConfusion
    rw [evaluate_of_closed h, hrest]
    exact .stop hfirst
  | opened f c o d h ihgroup ih =>
    have hfirst := Scope.takesFirst_of_pass h Pass.noConfusion Pass.noConfusion
    rw [evaluate_of_opened h]
    exact .group hfirst (ihgroup rfl).behind_spaces (ih rfl)
  | literal f c o l d h ih =>
    have hfirst := Scope.takesFirst_of_pass h Pass.noConfusion Pass.noConfusion
    rw [evaluate_of_literal h]
    exact .literal hfirst (ih rfl).behind_spaces
  | blank f c d h ih =>
    obtain ⟨hfirst, hrest⟩ := Scope.takesFirst_of_pass h Pass.noConfusion Pass.noConfusion
    rw [evaluate_of_blank h, evaluate_idle, hrest]
    exact .stop hfirst

/-- The evaluation of a group reads the text behind its bracket. -/
theorem Frame.reads_evaluateGroup (c : Cursor) :
    Reads true [] c.rest (evaluateGroup (α := α) c).1.number (evaluateGroup (α := α) c).2.rest :=
  reads_evaluate { scope := .group } c rfl

/-- The evaluation of a text reads it without the blanks around it. -/
theorem reads_evaluateChars (text : List Char) :
    Reads false [] (Text.strip text) (evaluateChars (α := α) text).1.number
      (evaluateChars (α := α) text).2.rest := by
  unfold evaluateChars
  rw [Scope.evaluate_eq]
  exact Frame.reads_evaluate { scope := .outermost } (.ofList (Text.strip text)) rfl

/-- **What a text comes to is what its reading says.** -/
theorem Reads.number_eq {text r : List Char} {v : α} (h : Reads false [] (Text.strip text) v r) :
    (evaluateChars (α := α) text).1.number = v :=
  (h.unique (reads_evaluateChars text)).1

end Reading

end Reckon
