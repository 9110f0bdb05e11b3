import Mathlib.Data.List.Forall2
import Mathlib.Order.Bounds.Defs
import Reckon.Proofs.States
import Reckon.Proofs.Unclosed

/-!
# The groups of a tree and the brackets of a text

An evaluation leaves a tree of groups. The text has brackets, and which
closing one belongs to which opening one is a matter of counting: what is
between the two is balanced (`Matches`). This module says that the tree is
that of the brackets. A scope that is evaluated from any place on stops at
the first character that has to stop it (`StopsAt`); up to there every
opening bracket has a group, in their order and at its depth; and a group is
closed exactly if its bracket has a match before that place.

Two descriptions of the brackets meet here. The statement is about places
of the text; the evaluation hands a text from scope to scope. `openings`
stands between them: it lists the opening brackets up to the stop by
recursion over the text, each with its depth and whether it finds its match.
A bracket more around a text splits that list (`openings_succ`), exactly as
the evaluation of a group splits the scope around it, and over the text that
is passed it is the list of the places (`openings_eq_map`).
-/

namespace Reckon

/-! ## Pairs of brackets -/

/-- **The brackets of a text are balanced**, whatever else is in it. -/
structure IsBalanced (s : List Char) : Prop where
  /-- No beginning of it closes more than it opened. -/
  opened : ∀ p, p <+: s → p.count ')' ≤ p.count '('
  /-- All that is opened is closed. -/
  closed : s.count '(' = s.count ')'

/-- **A pair of brackets** of a text, by their places. -/
structure Matches (s : List Char) (i j : Nat) : Prop where
  lt : i < j
  opening : s[i]? = some '('
  closing : s[j]? = some ')'
  /-- What is between the two is balanced. -/
  between : IsBalanced ((s.take j).drop (i + 1))

/-- Has the bracket at a place its closing bracket in the text? -/
def HasMatch (s : List Char) (i : Nat) : Prop :=
  ∃ j, Matches s i j

/-- **A place where an evaluation has to stop**: the text is over, or the
character there is none of an expression, or it is a closing bracket and no
bracket before it is without a match. -/
def StopsAt (s : List Char) (n : Nat) : Prop :=
  n = s.length
    ∨ ∃ x, s[n]? = some x
      ∧ (x ∉ expressionChars
        ∨ x = ')' ∧ ∀ j, (s.take n)[j]? = some '(' → HasMatch (s.take n) j)

/-- In the characters of an expression the balanced texts are the
expressions. -/
theorem IsBalanced.isExpression {s : List Char} (h : IsBalanced s)
    (hs : ∀ x ∈ s, x ∈ expressionChars) : IsExpression s :=
  ⟨hs, h.opened, h.closed⟩

theorem IsExpression.isBalanced {s : List Char} (h : IsExpression s) : IsBalanced s :=
  ⟨h.opened, h.closed⟩

/-! ## The text that is passed -/

/-- A foreign character is neither plain nor a bracket. -/
theorem not_mem_expressionChars_iff {x : Char} :
    x ∉ expressionChars ↔ isPlain x = false ∧ x ≠ '(' ∧ x ≠ ')' := by
  rw [mem_expressionChars_iff, not_or, not_or, Bool.not_eq_true]
  exact ⟨fun ⟨ho, hc, hx⟩ => ⟨hx, ho, hc⟩, fun ⟨hx, ho, hc⟩ => ⟨ho, hc, hx⟩⟩

/-- **The brackets are followed over a beginning of the text**, up to what
stops them. -/
theorem exists_reach_eq (d : Nat) (s : List Char) :
    ∃ w, s = w ++ (reach d s).2 ∧ reach d w = ((reach d s).1, []) := by
  induction s using charCases generalizing d with
  | nil => exact ⟨[], rfl, rfl⟩
  | openBracket s ih =>
    obtain ⟨w, hs, hw⟩ := ih (d + 1)
    exact ⟨'(' :: w, congrArg _ hs, hw⟩
  | closeBracket s ih =>
    cases d with
    | zero => exact ⟨[], rfl, rfl⟩
    | succ d =>
      obtain ⟨w, hs, hw⟩ := ih d
      exact ⟨')' :: w, congrArg _ hs, hw⟩
  | plain x s hx ih =>
    obtain ⟨w, hs, hw⟩ := ih d
    rw [reach_plain hx]
    exact ⟨x :: w, congrArg _ hs, (reach_plain hx d w).trans hw⟩
  | foreign x s hx ho hc =>
    rw [reach_foreign hx ho hc]
    exact ⟨[], rfl, rfl⟩

/-- What stops the brackets is foreign, or a closing bracket when none is
open. -/
theorem head_reach (d : Nat) (s : List Char) :
    ∀ x ∈ (reach d s).2.head?, x ∉ expressionChars ∨ x = ')' ∧ (reach d s).1 = 0 := by
  induction s using charCases generalizing d with
  | nil => exact fun x hx => absurd hx (by simp)
  | openBracket s ih => exact ih (d + 1)
  | closeBracket s ih =>
    cases d with
    | zero => exact fun x hx => .inr ⟨(Option.some.inj hx).symm, rfl⟩
    | succ d => exact ih d
  | plain x s hx ih =>
    rw [reach_plain hx]
    exact ih d
  | foreign x s hx ho hc =>
    rw [reach_foreign hx ho hc]
    intro y hy
    obtain rfl := Option.some.inj hy
    exact .inl (not_mem_expressionChars_iff.mpr ⟨hx, ho, hc⟩)

/-- Brackets that are open around a text stay open, if no closing bracket
stops it. -/
theorem reach_add {d : Nat} {s : List Char} (hs : (reach d s).2.head? ≠ some ')') (k : Nat) :
    reach (d + k) s = ((reach d s).1 + k, (reach d s).2) := by
  induction k with
  | zero => rfl
  | succ k ih => rw [← Nat.add_assoc, reach_succ, ih, if_neg hs, Nat.add_assoc]

/-! ## Matches, by following the brackets -/

/-- A text is split at each of its characters. -/
theorem eq_append_cons_of_getElem? {s : List Char} {i : Nat} {x : Char} (h : s[i]? = some x) :
    s = s.take i ++ x :: s.drop (i + 1) := by
  obtain ⟨hi, rfl⟩ := List.getElem?_eq_some_iff.mp h
  rw [← List.drop_eq_getElem_cons hi, List.take_append_drop]

/-- **A bracket has a match if the brackets behind it stop at a closing
one.** -/
theorem hasMatch_iff {w : List Char} (hw : ∀ x ∈ w, x ∈ expressionChars) {i : Nat}
    (hi : w[i]? = some '(') :
    HasMatch w i ↔ (reach 0 (w.drop (i + 1))).2.head? = some ')' := by
  constructor
  · rintro ⟨j, hlt, _, hclose, hbetween⟩
    have hm : IsExpression ((w.take j).drop (i + 1)) :=
      hbetween.isExpression fun x hx => hw x (List.mem_of_mem_take (List.mem_of_mem_drop hx))
    have hj : j < w.length := (List.getElem?_eq_some_iff.mp hclose).1
    rw [eq_append_cons_of_getElem? hclose,
      List.drop_append_of_le_length (by rw [List.length_take]; omega), hm.reach_append]
    rfl
  · intro h
    obtain ⟨m, hdrop, hm⟩ := exists_reach_eq 0 (w.drop (i + 1))
    obtain ⟨r, hr⟩ := List.head?_eq_some_iff.mp h
    rw [reach_fst_of_closeBracket h] at hm
    rw [hr] at hdrop
    have hi' : i < w.length := (List.getElem?_eq_some_iff.mp hi).1
    have hw' : w = w.take (i + 1) ++ (m ++ ')' :: r) := by
      rw [← hdrop, List.take_append_drop]
    have hlen : (w.take (i + 1)).length = i + 1 := by
      rw [List.length_take]
      omega
    refine ⟨i + 1 + m.length, ⟨by omega, hi, ?_, ?_⟩⟩
    · rw [hw', List.getElem?_append_right (by omega), hlen, Nat.add_sub_cancel_left,
        List.getElem?_append_right (Nat.le_refl _), Nat.sub_self]
      rfl
    · have : (w.take (i + 1 + m.length)).drop (i + 1) = m := by
        rw [List.drop_take, hdrop, Nat.add_sub_cancel_left, List.take_left]
      rw [this]
      exact (isExpression_iff_reach.mpr hm).isBalanced

/-- **If brackets are left open, one of them is without a match.** -/
theorem exists_unmatched {d e : Nat} {w : List Char} (hw : reach d w = (e, [])) (hde : d < e) :
    ∃ u v, w = u ++ '(' :: v ∧ (reach 0 v).2.head? ≠ some ')' := by
  -- Behind a bracket that has a match the search goes on behind the match.
  generalize hn : w.length = n
  induction n using Nat.strongRecOn generalizing d w with
  | ind n ih =>
    subst hn
    cases w using charCases with
    | nil => exact absurd (Prod.mk.inj hw).1 (Nat.ne_of_lt hde)
    | openBracket s =>
      by_cases hs : (reach 0 s).2.head? = some ')'
      · obtain ⟨m, hsm, hm⟩ := exists_reach_eq 0 s
        obtain ⟨r, hr⟩ := List.head?_eq_some_iff.mp hs
        rw [reach_fst_of_closeBracket hs] at hm
        rw [hr] at hsm
        subst hsm
        rw [reach_openBracket, (isExpression_iff_reach.mpr hm).reach_append,
          reach_succ_closeBracket] at hw
        obtain ⟨u, v, rfl, hv⟩ := ih r.length (by simp; omega) hw hde rfl
        exact ⟨'(' :: m ++ ')' :: u, v, by simp, hv⟩
      · exact ⟨[], s, rfl, hs⟩
    | closeBracket s =>
      cases d with
      | zero => exact absurd (Prod.mk.inj hw).2 (by simp)
      | succ d =>
        rw [reach_succ_closeBracket] at hw
        obtain ⟨u, v, rfl, hv⟩ := ih s.length (by simp) hw (Nat.lt_of_succ_lt hde) rfl
        exact ⟨')' :: u, v, rfl, hv⟩
    | plain x s hx =>
      rw [reach_plain hx] at hw
      obtain ⟨u, v, rfl, hv⟩ := ih s.length (by simp) hw hde rfl
      exact ⟨x :: u, v, rfl, hv⟩
    | foreign x s hx ho hc =>
      rw [reach_foreign hx ho hc] at hw
      exact absurd (Prod.mk.inj hw).2 (by simp)

/-- Nothing is left open exactly if every bracket has its match. -/
theorem reach_fst_eq_zero_iff {w : List Char} {e : Nat} (hw : reach 0 w = (e, [])) :
    e = 0 ↔ ∀ j, w[j]? = some '(' → HasMatch w j := by
  have hchars := (reach_eq_nil_iff.mp hw).1
  constructor
  · rintro rfl j hj
    rw [hasMatch_iff hchars hj]
    by_contra hopen
    rw [eq_append_cons_of_getElem? hj, reach_append_eq] at hw
    split at hw
    · -- The bracket would be open at the end.
      rw [reach_openBracket, Nat.add_comm, ← Nat.zero_add (1 + _), reach_add hopen] at hw
      exact absurd (Prod.mk.inj hw).1 (by omega)
    · exact absurd (Prod.mk.inj hw).2 (by simp)
  · intro h
    by_contra he
    obtain ⟨u, v, rfl, hv⟩ := exists_unmatched hw (Nat.pos_of_ne_zero he)
    have hget : (u ++ '(' :: v)[u.length]? = some '(' := by simp
    have hmatch := (hasMatch_iff hchars hget).mp (h _ hget)
    rw [← List.drop_drop, List.drop_left] at hmatch
    exact hv hmatch

/-- **The brackets stop at the first place where an evaluation has to.** -/
theorem isLeast_stopsAt {s w z : List Char} {e : Nat} (hs : s = w ++ z)
    (hw : reach 0 w = (e, [])) (hz : ∀ x ∈ z.head?, x ∉ expressionChars ∨ x = ')' ∧ e = 0) :
    IsLeast { n | StopsAt s n } w.length := by
  subst hs
  obtain ⟨hchars, hopen, -⟩ := reach_eq_nil_iff.mp hw
  constructor
  · cases z with
    | nil => exact .inl (by simp)
    | cons x z =>
      refine .inr ⟨x, by simp, (hz x rfl).imp_right fun h => ⟨h.1, ?_⟩⟩
      rw [List.take_left]
      exact (reach_fst_eq_zero_iff hw).mp h.2
  · intro n hn
    by_contra hlt
    rw [Nat.not_le] at hlt
    rcases hn with rfl | ⟨x, hx, hstop⟩
    · simp at hlt
    rw [List.getElem?_append_left hlt] at hx
    rw [List.take_append_of_le_length (Nat.le_of_lt hlt)] at hstop
    rcases hstop with hforeign | ⟨rfl, hall⟩
    · exact hforeign (hchars x (List.mem_of_getElem? hx))
    · -- A bracket that is passed closes one that was open.
      rw [eq_append_cons_of_getElem? hx, reach_append_eq] at hw
      split at hw
      · rename_i hnil
        have hzero : (reach 0 (w.take n)).1 = 0 :=
          (reach_fst_eq_zero_iff (Prod.ext rfl hnil)).mpr hall
        rw [hzero] at hw
        exact absurd (Prod.mk.inj hw).2 (by simp)
      · exact absurd (Prod.mk.inj hw).2 (by simp)

/-! ## The opening brackets that are passed -/

/-- **The opening brackets of a text** up to what stops them, `depth` of the
`outer + depth` brackets around it being its own: how deep each is, and
whether it finds its match. -/
def openings (outer depth : Nat) : List Char → List (Nat × Bool)
  | [] => []
  | x :: s =>
    if x = '(' then
      (outer + depth, (reach 0 s).2.head? == some ')') :: openings outer (depth + 1) s
    else if x = ')' then
      match depth with
      | 0 => []
      | depth + 1 => openings outer depth s
    else if isPlain x then openings outer depth s
    else []

@[simp] theorem openings_nil (k d : Nat) : openings k d [] = [] := rfl

@[simp] theorem openings_openBracket (k d : Nat) (s : List Char) :
    openings k d ('(' :: s)
      = (k + d, (reach 0 s).2.head? == some ')') :: openings k (d + 1) s := rfl

@[simp] theorem openings_zero_closeBracket (k : Nat) (s : List Char) :
    openings k 0 (')' :: s) = [] := rfl

@[simp] theorem openings_succ_closeBracket (k d : Nat) (s : List Char) :
    openings k (d + 1) (')' :: s) = openings k d s := rfl

theorem openings_plain {x : Char} (h : isPlain x = true) (k d : Nat) (s : List Char) :
    openings k d (x :: s) = openings k d s := by
  obtain ⟨ho, hc⟩ := ne_bracket_of_isPlain h
  conv_lhs => unfold openings
  rw [if_neg ho, if_neg hc, if_pos h]

theorem openings_foreign {x : Char} (h : isPlain x = false) (ho : x ≠ '(') (hc : x ≠ ')')
    (k d : Nat) (s : List Char) : openings k d (x :: s) = [] := by
  conv_lhs => unfold openings
  rw [if_neg ho, if_neg hc, if_neg (Bool.not_eq_true _ ▸ h)]

theorem PlainTo.openings_eq {r s : List Char} (h : PlainTo r s) (k d : Nat) :
    openings k d r = openings k d s := by
  obtain ⟨w, hw, rfl⟩ := h
  induction w with
  | nil => rfl
  | cons x w ih =>
    rw [List.cons_append, openings_plain (hw x List.mem_cons_self),
      ih fun y hy => hw y (List.mem_cons_of_mem _ hy)]

/-- Where the brackets stop, none is opened. -/
theorem openings_reach (k d : Nat) (s : List Char) : openings k 0 (reach d s).2 = [] := by
  induction s using charCases generalizing d with
  | nil => rfl
  | openBracket s ih => exact ih (d + 1)
  | closeBracket s ih =>
    cases d with
    | zero => rfl
    | succ d => exact ih d
  | plain x s hx ih =>
    rw [reach_plain hx]
    exact ih d
  | foreign x s hx ho hc =>
    rw [reach_foreign hx ho hc]
    exact openings_foreign hx ho hc k 0 s

/-- **A bracket more around a text**: what is opened is opened inside it, up
to its match, and outside from there on. -/
theorem openings_succ (k d : Nat) (s : List Char) :
    openings k (d + 1) s
      = openings (k + 1) d s
        ++ if (reach d s).2.head? = some ')' then openings k 0 (reach d s).2.tail else [] := by
  induction s using charCases generalizing d with
  | nil => rfl
  | openBracket s ih =>
    rw [openings_openBracket, openings_openBracket, ih, reach_openBracket, Nat.add_right_comm k 1]
    rfl
  | closeBracket s ih =>
    cases d with
    | zero => rfl
    | succ d => exact ih d
  | plain x s hx ih =>
    rw [openings_plain hx, openings_plain hx, reach_plain hx]
    exact ih d
  | foreign x s hx ho hc =>
    rw [openings_foreign hx ho hc, openings_foreign hx ho hc, reach_foreign hx ho hc, if_neg]
    · rfl
    · exact fun h => hc (Option.some.inj h)

/-- Behind a group a bracket can be opened if the group is closed. -/
theorem openings_behind {s r : List Char}
    (h : r = if closesAt true (reach 0 s).2 then (reach 0 s).2.tail else (reach 0 s).2) (k : Nat) :
    openings k 0 r
      = if (reach 0 s).2.head? = some ')' then openings k 0 (reach 0 s).2.tail else [] := by
  rw [h, closesAt, Bool.true_and]
  by_cases hs : (reach 0 s).2.head? = some ')'
  · rw [if_pos hs, if_pos (beq_iff_eq.mpr hs)]
  · rw [if_neg hs, if_neg (fun h => hs (beq_iff_eq.mp h)), openings_reach]

/-- A bracket that has no match has none in what stops the brackets. -/
theorem head_reach_append {d e : Nat} {s z : List Char} (hs : reach (d + 1) s = (e, []))
    (hz : ∀ x ∈ z.head?, x ∉ expressionChars ∨ x = ')' ∧ e = 0) :
    (reach 0 (s ++ z)).2.head? = some ')' ↔ (reach 0 s).2.head? = some ')' := by
  rw [reach_append_eq]
  split
  · -- The bracket is open at the end, so that what is behind is foreign.
    rename_i hnil
    have hopen : (reach 0 s).2.head? ≠ some ')' := by
      rw [hnil]
      exact nofun
    have hadd := reach_add hopen (d + 1)
    rw [Nat.zero_add, hs] at hadd
    have he : e ≠ 0 := by
      rw [(Prod.mk.inj hadd).1]
      omega
    refine iff_of_false ?_ hopen
    cases z with
    | nil => exact nofun
    | cons x z =>
      obtain ⟨hx, ho, hc⟩ := not_mem_expressionChars_iff.mp
        ((hz x rfl).resolve_right fun h => he h.2)
      rw [reach_foreign hx ho hc]
      exact fun h => hc (Option.some.inj h)
  · rename_i hsome
    rw [List.head?_append_of_ne_nil _ hsome]

/-- What stops the brackets has no bracket that is opened, and closes none. -/
theorem openings_append {d e : Nat} {w z : List Char} (hw : reach d w = (e, []))
    (hz : ∀ x ∈ z.head?, x ∉ expressionChars ∨ x = ')' ∧ e = 0) (k : Nat) :
    openings k d (w ++ z) = openings k d w := by
  induction w using charCases generalizing d with
  | nil =>
    obtain rfl := (Prod.mk.inj hw).1
    cases z with
    | nil => rfl
    | cons x z =>
      rcases hz x rfl with hx | ⟨rfl, rfl⟩
      · obtain ⟨hx, ho, hc⟩ := not_mem_expressionChars_iff.mp hx
        exact openings_foreign hx ho hc k d z
      · rfl
  | openBracket s ih =>
    have hhead : ((reach 0 (s ++ z)).2.head? == some ')') = ((reach 0 s).2.head? == some ')') :=
      Bool.eq_iff_iff.mpr (by rw [beq_iff_eq, beq_iff_eq, head_reach_append hw hz])
    rw [List.cons_append, openings_openBracket, openings_openBracket, hhead, ih hw]
  | closeBracket s ih =>
    cases d with
    | zero => rfl
    | succ d => exact ih hw
  | plain x s hx ih =>
    rw [reach_plain hx] at hw
    rw [List.cons_append, openings_plain hx, openings_plain hx]
    exact ih hw
  | foreign x s hx ho hc =>
    rw [List.cons_append, openings_foreign hx ho hc, openings_foreign hx ho hc]

theorem idxsOf_openBracket (s : List Char) :
    List.idxsOf '(' ('(' :: s) = 0 :: (List.idxsOf '(' s).map (· + 1) := by
  rw [List.idxsOf_cons, if_pos (beq_self_eq_true _), List.idxsOf_start (s := 0 + 1)]

theorem idxsOf_cons_of_ne {x : Char} (hx : x ≠ '(') (s : List Char) :
    List.idxsOf '(' (x :: s) = (List.idxsOf '(' s).map (· + 1) := by
  rw [List.idxsOf_cons, if_neg (by simpa using hx), List.idxsOf_start (s := 0 + 1)]

/-- **The opening brackets that are passed, by their places.** -/
theorem openings_eq_map {d e : Nat} {w : List Char} (hw : reach d w = (e, [])) (k : Nat) :
    openings k d w
      = (List.idxsOf '(' w).map fun j =>
          (k + (d + (w.take j).count '(' - (w.take j).count ')'),
            (reach 0 (w.drop (j + 1))).2.head? == some ')') := by
  induction w using charCases generalizing d with
  | nil => rfl
  | openBracket s ih =>
    rw [openings_openBracket, ih hw, idxsOf_openBracket, List.map_cons, List.map_map]
    refine congrArg _ (List.map_congr_left fun j _ => ?_)
    rw [Function.comp_apply, List.take_succ_cons, List.drop_succ_cons, List.count_cons_self,
      List.count_cons_of_ne (by decide), Nat.add_right_comm, Nat.add_assoc d]
  | closeBracket s ih =>
    cases d with
    | zero => exact absurd (Prod.mk.inj hw).2 (by simp)
    | succ d =>
      rw [openings_succ_closeBracket, ih hw, idxsOf_cons_of_ne (by decide), List.map_map]
      refine List.map_congr_left fun j _ => ?_
      rw [Function.comp_apply, List.take_succ_cons, List.drop_succ_cons, List.count_cons_self,
        List.count_cons_of_ne (by decide), Nat.add_right_comm, Nat.add_sub_add_right]
  | plain x s hx ih =>
    obtain ⟨ho, hc⟩ := ne_bracket_of_isPlain hx
    rw [reach_plain hx] at hw
    rw [openings_plain hx, ih hw, idxsOf_cons_of_ne ho, List.map_map]
    refine List.map_congr_left fun j _ => ?_
    rw [Function.comp_apply, List.take_succ_cons, List.drop_succ_cons, List.count_cons_of_ne ho,
      List.count_cons_of_ne hc]
  | foreign x s hx ho hc =>
    rw [reach_foreign hx ho hc] at hw
    exact absurd (Prod.mk.inj hw).2 (by simp)

/-- **The opening brackets that are passed**, with what their places say of
them. -/
theorem forall₂_openings {e : Nat} {w : List Char} (hw : reach 0 w = (e, [])) :
    List.Forall₂ (fun o j => o.1 = openBrackets (w.take j) ∧ (o.2 = true ↔ HasMatch w j))
      (openings 0 0 w) (List.idxsOf '(' w) := by
  rw [openings_eq_map hw, List.forall₂_map_left_iff, List.forall₂_same]
  intro j hj
  obtain ⟨hlt, hget⟩ := List.mem_idxsOf_iff_exists_getElem_pos.mp hj
  have hj' : w[j]? = some '(' := List.getElem?_eq_some_iff.mpr ⟨hlt, beq_iff_eq.mp hget⟩
  constructor
  · show 0 + (0 + _ - _) = _
    rw [Nat.zero_add, Nat.zero_add, openBrackets]
  · show ((reach 0 (w.drop (j + 1))).2.head? == some ')') = true ↔ HasMatch w j
    rw [beq_iff_eq, hasMatch_iff (reach_eq_nil_iff.mp hw).1 hj']

/-! ## The groups of an evaluated scope -/

namespace Tree

variable {α : Type}

mutual

/-- **The groups in a tree**, those right inside it at the given depth: each
with its depth, and before the groups that are in it. -/
def descendants (depth : Nat) : Tree α → List (Nat × Tree α)
  | node _ _ groups => descendantsOf depth groups

/-- The groups of a list, with those that are in them. -/
def descendantsOf (depth : Nat) : List (Tree α) → List (Nat × Tree α)
  | [] => []
  | t :: ts => (depth, t) :: (t.descendants (depth + 1) ++ descendantsOf depth ts)

end

theorem descendants_eq (k : Nat) (t : Tree α) : t.descendants k = descendantsOf k t.groups := by
  cases t
  rfl

/-- The groups of a tree, as the text has them: how deep each is, and whether
it is closed. -/
def marks (k : Nat) (ts : List (Tree α)) : List (Nat × Bool) :=
  (descendantsOf k ts).map fun g => (g.1, g.2.scope.closed)

theorem marks_cons (k : Nat) (t : Tree α) (ts : List (Tree α)) :
    marks k (t :: ts) = (k, t.scope.closed) :: (marks (k + 1) t.groups ++ marks k ts) := by
  rw [marks, descendantsOf, List.map_cons, List.map_append, descendants_eq]
  rfl

end Tree

namespace Frame

variable {α : Type} [Arithmetic α]

theorem text_evaluate (f : Frame α) (c : Cursor) : (f.evaluate c).2.text = c.text := by
  induction f, c using evaluate_induction with
  | ended f c h => rw [evaluate_of_ended h]
  | stalled f c h => rw [evaluate_of_stalled h]
  | closed f c d h =>
    rw [evaluate_of_closed h]
    exact Scope.text_pass (congrArg Pass.cursor? h)
  | opened f c o d h ihgroup ih =>
    rw [evaluate_of_opened h, ih]
    exact ihgroup.trans (Scope.text_pass (congrArg Pass.cursor? h))
  | literal f c o l d h ih =>
    rw [evaluate_of_literal h, ih]
    exact Scope.text_pass (congrArg Pass.cursor? h)
  | blank f c d h ih =>
    rw [evaluate_of_blank h, ih]
    exact Scope.text_pass (congrArg Pass.cursor? h)

/-- **An evaluation makes a group of every bracket that it opens**, in their
order: from any place of a text, and behind the groups that the scope has. -/
theorem exists_groups_evaluate (f : Frame α) (c : Cursor)
    (hgrown : f.scope.grown = true ∨ Stops f.scope.closesGroup c.rest) :
    ∃ ts, (f.evaluate c).1.groups = f.groups ++ ts
      ∧ ∀ k, Tree.marks k ts = openings k 0 c.rest := by
  induction f, c using evaluate_induction with
  | ended f c h =>
    rw [evaluate_of_ended h, Scope.rest_of_pass_ended h]
    exact ⟨[], (List.append_nil _).symm, fun k => rfl⟩
  | stalled f c h =>
    have hstops := hgrown.resolve_left (Bool.eq_false_iff.mp (Scope.grown_of_pass_stalled h))
    rw [evaluate_of_stalled h]
    refine ⟨[], (List.append_nil _).symm, fun k => ?_⟩
    have hnone := openings_reach k 0 c.rest
    rw [hstops.reach_eq] at hnone
    exact hnone.symm
  | closed f c d h =>
    obtain ⟨_, htext⟩ := Scope.plainTo_of_pass_closed h
    rw [evaluate_of_closed h]
    refine ⟨[], (List.append_nil _).symm, fun k => ?_⟩
    rw [htext.openings_eq]
    rfl
  | opened f c o d h ihgroup ih =>
    have htext := Scope.plainTo_of_pass_opened h
    have hreach : Reaches { scope := .group } (reach 0 d.rest) (evaluateGroup (α := α) d) :=
      reaches_evaluate _ d rfl (.inl rfl)
    obtain ⟨ts, hts, hmarks⟩ := ihgroup (.inl rfl)
    obtain ⟨us, hus, hmarks'⟩ := ih (.inl rfl)
    obtain rfl : (evaluateGroup (α := α) d).1.groups = ts := hts
    have hclosed : (evaluateGroup (α := α) d).1.scope.closed
        = ((reach 0 d.rest).2.head? == some ')') :=
      hreach.closed.trans (Bool.true_and _)
    rw [evaluate_of_opened h]
    refine ⟨(evaluateGroup (α := α) d).1 :: us, ?_, fun k => ?_⟩
    · rw [hus]
      exact (List.append_cons _ _ _).symm
    · rw [Tree.marks_cons, hclosed, hmarks, hmarks', htext.openings_eq, openings_openBracket,
        openings_succ, openings_behind hreach.rest]
      rfl
  | literal f c o l d h ih =>
    obtain ⟨ts, hts, hmarks⟩ := ih (.inl rfl)
    rw [evaluate_of_literal h]
    refine ⟨ts, hts, fun k => ?_⟩
    rw [hmarks, (Scope.plainTo_of_pass_literal h).openings_eq]
  | blank f c d h ih =>
    obtain ⟨htext, hstops⟩ := Scope.plainTo_of_pass_blank h
    obtain ⟨ts, hts, hmarks⟩ := ih (.inr hstops)
    rw [evaluate_of_blank h]
    refine ⟨ts, hts, fun k => ?_⟩
    rw [hmarks, htext.openings_eq]

end Frame

/-! ## The tree mirrors the brackets -/

/-- **Where a scope leaves the cursor**: at what stops it, or behind that if it
is a bracket that closes the scope. -/
theorem position_of_stop {b closed : Bool} {c d : Cursor} {w z : List Char}
    (htext : d.text = c.text) (hc : c.rest = w ++ z) (hclosed : closed = closesAt b z)
    (hd : d.rest = if closesAt b z then z.tail else z) :
    if b = true ∧ c.rest[w.length]? = some ')' then
      closed = true ∧ d.position = c.position + w.length + 1
    else closed = false ∧ d.position = c.position + w.length := by
  have hnext : c.rest[w.length]? = z.head? := by
    rw [hc, List.getElem?_append_right (Nat.le_refl _), Nat.sub_self, List.head?_eq_getElem?]
  have hlen := c.length_text
  rw [← htext, d.length_text, congrArg List.length hc, List.length_append] at hlen
  rw [hnext]
  split
  · rename_i h
    obtain ⟨z, rfl⟩ := List.head?_eq_some_iff.mp h.2
    rw [h.1] at hclosed hd
    rw [show d.rest = z from hd, List.length_cons] at hlen
    exact ⟨hclosed, by omega⟩
  · rename_i h
    have hopen : closesAt b z = false := by
      rw [closesAt, Bool.and_eq_false_imp]
      exact fun hgroup => beq_false_of_ne fun hhead => h ⟨hgroup, hhead⟩
    rw [hopen] at hclosed hd
    rw [show d.rest = z from hd] at hlen
    exact ⟨hclosed, by omega⟩

/-- **The tree mirrors the brackets**, and the scan stops at one definite
place. An evaluation that begins at any place of a text, in a group or not,
stops at the first place where it has to; only a group passes the closing
bracket there, and only then it is closed. The groups of the tree, each before
those inside it, are the opening brackets up to that place in their order:
every group is as deep as there are open brackets before its own, and it is
closed exactly if its bracket has its match before the stop. -/
theorem evaluate_mirrors_brackets {α : Type} [Arithmetic α] (closesGroup : Bool) (c : Cursor) :
    let r := Scope.evaluate (α := α) { closesGroup := closesGroup } c
    ∃ n, IsLeast { n | StopsAt c.rest n } n
      ∧ (if closesGroup = true ∧ c.rest[n]? = some ')' then
          r.1.scope.closed = true ∧ r.2.position = c.position + n + 1
        else r.1.scope.closed = false ∧ r.2.position = c.position + n)
      ∧ List.Forall₂
        (fun g j => g.1 = openBrackets ((c.rest.take n).take j)
          ∧ (g.2.scope.closed = true ↔ HasMatch (c.rest.take n) j))
        (r.1.descendants 0) (List.idxsOf '(' (c.rest.take n)) := by
  intro r
  have hr : r = Frame.evaluate { scope := { closesGroup := closesGroup } } c :=
    Scope.evaluate_eq _ c
  have hreach := Frame.reaches_evaluate (α := α) { scope := { closesGroup := closesGroup } } c rfl
    (.inl rfl)
  obtain ⟨ts, hts, hmarks⟩ := Frame.exists_groups_evaluate (α := α)
    { scope := { closesGroup := closesGroup } } c (.inl rfl)
  have htext : r.2.text = c.text := hr ▸ Frame.text_evaluate _ c
  rw [← hr] at hreach hts
  obtain rfl : r.1.groups = ts := hts
  obtain ⟨w, hs, hw⟩ := exists_reach_eq 0 c.rest
  have hz := head_reach 0 c.rest
  have hclosed := hreach.closed
  have hrest := hreach.rest
  generalize (reach 0 c.rest).1 = e at hw hz
  generalize (reach 0 c.rest).2 = z at hs hz hclosed hrest
  refine ⟨w.length, isLeast_stopsAt hs hw hz, position_of_stop htext hs hclosed hrest, ?_⟩
  have htake : c.rest.take w.length = w := by
    rw [hs, List.take_left]
  have hgroups := forall₂_openings hw
  rw [← openings_append hw hz, ← hs, ← hmarks, Tree.marks, ← Tree.descendants_eq,
    List.forall₂_map_left_iff] at hgroups
  rw [htake]
  exact hgroups

end Reckon
