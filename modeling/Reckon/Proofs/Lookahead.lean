import Mathlib.Order.Bounds.Basic
import Reckon.Proofs.Positions

/-!
# Looking for a literal ahead

Whether a literal is ahead is found out by going along it, character by
character, and coming back. On the way the pointer is somewhere else, as far
into the literal as the text spells it (`Cursor.spelled`), and it stops there
for one of two reasons: the literal is over, or the text does not go on with it.
The end of the text is no reason of its own. A move at the end is bounded, but
none is made there, since no character is left to be seen.

From either stop the pointer is put back. What is left of the walk is one bit,
and the bit is that of a test that does not move at all: the text ahead has the
literal for a prefix.
-/

namespace Reckon

namespace Cursor

/-- **The text is spelled as far as it goes with the literal**, and no further. -/
theorem isGreatest_spelled (literal s : List Char) :
    IsGreatest {n | n ≤ literal.length ∧ literal.take n <+: s} (spelled literal s) := by
  fun_induction spelled literal s with
  | case1 x literal y s hyx ih =>
    obtain rfl := beq_iff_eq.mp hyx
    refine ⟨⟨Nat.succ_le_succ ih.1.1, ?_⟩, fun n hn => ?_⟩
    · rw [List.take_succ_cons, List.cons_prefix_cons]
      exact ⟨rfl, ih.1.2⟩
    · cases n with
      | zero => exact Nat.zero_le _
      | succ n =>
        obtain ⟨hle, hprefix⟩ := hn
        rw [List.take_succ_cons, List.cons_prefix_cons] at hprefix
        exact Nat.succ_le_succ (ih.2 ⟨Nat.le_of_succ_le_succ hle, hprefix.2⟩)
  | case2 x literal y s hyx =>
    refine ⟨⟨Nat.zero_le _, List.nil_prefix⟩, fun n hn => ?_⟩
    cases n with
    | zero => exact Nat.le_refl 0
    | succ n =>
      have hprefix := hn.2
      rw [List.take_succ_cons, List.cons_prefix_cons] at hprefix
      exact absurd (beq_iff_eq.mpr hprefix.1.symm) hyx
  | case3 literal s hover =>
    -- One of the two is over, and there is nothing to go on with.
    refine ⟨⟨Nat.zero_le _, List.nil_prefix⟩, fun n hn => ?_⟩
    cases literal with
    | nil => exact hn.1
    | cons x literal =>
      cases s with
      | nil =>
        have hnil := List.prefix_nil.mp hn.2
        rw [List.take_eq_nil_iff] at hnil
        exact Nat.le_of_eq (hnil.resolve_right (List.cons_ne_nil x literal))
      | cons y s => exact absurd rfl (hover x literal y s rfl)

variable (c : Cursor)

/-- **A literal is ahead if the text ahead begins with it.** -/
theorem peekLiteral_eq_true_iff (literal : List Char) :
    c.peekLiteral literal = true ↔ literal <+: c.rest := by
  induction literal generalizing c with
  | nil => exact iff_of_true rfl List.nil_prefix
  | cons x literal ih =>
    rw [peekLiteral, Bool.and_eq_true, ih, rest_skip, peek, nextChar?]
    cases c.rest with
    | nil =>
      exact iff_of_false (fun h => Bool.false_ne_true h.1)
        (fun h => List.cons_ne_nil x literal (List.prefix_nil.mp h))
    | cons y s =>
      rw [List.cons_prefix_cons, List.drop_succ_cons, List.drop_zero, eq_comm (a := x)]
      exact and_congr_left' beq_iff_eq

/-- **Looking for a literal is a test of the text ahead, and nothing else.** The
pointer goes along the literal as far as it is spelled, and it is spelled to its
end if the text ahead begins with it. Wherever the walk has ended, the answer
leaves position, last character and text as they were. -/
theorem perform_peekLiteral (literal : String) :
    ∃ whole n, c.pointer.follow literal.toList = .ok (whole, (c.skip n).pointer)
      ∧ IsGreatest {n | n ≤ literal.length ∧ literal.toList.take n <+: c.rest} n
      ∧ (whole = true ↔ literal.toList <+: c.rest)
      ∧ c.pointer.perform (.peekLiteral literal) = .ok (.flag whole, c.pointer)
      ∧ c.perform (.peekLiteral literal) = (.flag whole, c) := by
  refine ⟨_, _, c.follow_pointer literal.toList, ?_, c.peekLiteral_eq_true_iff literal.toList,
    c.perform_pointer (.peekLiteral literal), rfl⟩
  rw [← String.length_toList]
  exact isGreatest_spelled literal.toList c.rest

/-- A literal that the text spells up to its own end and not to that of the
literal. -/
example :
    let c : Cursor := (Cursor.ofList "<asdf/>".toList).skip 5
    c.perform (.peekLiteral "/>") = (.flag true, c)
      ∧ c.perform (.peekLiteral "/>x") = (.flag false, c) := by
  decide

end Cursor

end Reckon
