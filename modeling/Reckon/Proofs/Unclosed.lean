import Reckon.Proofs.Groups
import Reckon.Proofs.Margins

/-!
# Texts that end early

A text may be over, or go on with something that no scope reads, while
groups are open in it. Nothing is lost then and nothing is undefined: every
open scope ends where the innermost one does and comes to what its terms
come to. So what is behind such a text does not count, and closing brackets
that are missing can be put at its end.

Both say that a text `z` behind another one only ends scopes. The innermost
open one ends in it, and leaves a text to the scope around it, which has to
end there as well, and so on outwards: `EndsScopes d z` asks it of `d` open
groups and the scope around them all. A text that begins with a foreign
character is left by every scope as it is. A run of closing brackets loses
one with every group.

The groups that have closed before are not concerned
(`Reads.append_of_closed`), and they are told from the open ones by the
brackets: where a scope ends is where they lead (`Reads.rest_eq`).
-/

namespace Reckon

/-! ## Where nothing goes on -/

namespace Piece

variable {s z : List Char}

/-- A scope that does not go on in a text stands where the brackets stop. -/
theorem reach_of_first_stop (h : first s = .stop) : reach 0 s = (0, unspaced s) := by
  have hfollows := follows_first s
  rw [h] at hfollows
  have hstops : Stops false (unspaced s) := fun x hx =>
    ⟨(hfollows x hx).1, (hfollows x hx).2, fun _ => rfl⟩
  rw [(plainTo_unspaced s).reach_eq, hstops.reach_eq]

/-- **Behind a text a scope goes on as in the text alone**, if it would not go
on in what is behind. -/
theorem first_append_of_stop (hz : first z = .stop) (s : List Char) :
    first (s ++ z) = (first s).map fun t => unspaced (t ++ z) := by
  have hfollows := follows_first z
  rw [hz] at hfollows
  exact first_append (fun x hx => (hfollows x hx).1) fun h => absurd rfl (hfollows _ h).2

end Piece

theorem keepsPieces_of_stop {z : List Char} (hz : Piece.first z = .stop) (p : List Char) :
    KeepsPieces p z :=
  fun u _ _ => Piece.first_append_of_stop hz u

/-- **A text ends the scopes that are open**, `d` groups and one around them:
none goes on in what the scopes inside it leave of the text. -/
def EndsScopes (d : Nat) (z : List Char) : Prop :=
  ∀ i ≤ d, Piece.first ((leftBehind true)^[i] z) = .stop

/-- Foreign characters end all scopes, and so do spaces. -/
theorem endsScopes_of_foreign {z : List Char}
    (hz : ∀ x ∈ (unspaced z).head?, x ∉ expressionChars) (d : Nat) : EndsScopes d z := by
  have hplain : EndsPlain (unspaced z) := fun x hx =>
    Bool.eq_false_iff.mpr fun h => hz x hx (mem_expressionChars_iff.mpr (.inr (.inr h)))
  have hopen : (unspaced z).head? ≠ some '(' := fun h => hz _ h (by decide)
  have hclose : (unspaced z).head? ≠ some ')' := fun h => hz _ h (by decide)
  -- A group leaves the text as it is, but for the spaces before it.
  have hleft : leftBehind true z = unspaced z := by
    refine if_neg ?_
    rw [closesAt, Bool.true_and, beq_iff_eq]
    exact hclose
  have hleaves (i : Nat) : unspaced ((leftBehind true)^[i] z) = unspaced z := by
    induction i with
    | zero => rfl
    | succ i ih =>
      rw [Function.iterate_succ_apply', leftBehind, ih, ← leftBehind, hleft, unspaced_unspaced]
  intro i _
  rw [Piece.first_congr (hleaves i)]
  exact Piece.first_of_endsPlain hplain hopen

theorem unspaced_closeBrackets (k : Nat) :
    unspaced (List.replicate k ')') = List.replicate k ')' :=
  unspaced_of_head? fun h =>
    absurd (List.eq_of_mem_replicate (List.mem_of_head? h)) (by decide)

/-- **Closing brackets end all scopes**, each of which passes the first one. -/
theorem endsScopes_of_closeBrackets {z : List Char} {k : Nat}
    (hz : unspaced z = List.replicate k ')') (d : Nat) : EndsScopes d z := by
  have hfirst {z : List Char} {k : Nat} (hz : unspaced z = List.replicate k ')') :
      Piece.first z = .stop := by
    have hhead (x : Char) (hx : (unspaced z).head? = some x) : x = ')' := by
      rw [hz] at hx
      exact List.eq_of_mem_replicate (List.mem_of_head? hx)
    refine Piece.first_of_endsPlain (fun x hx => ?_) fun h => absurd (hhead _ h) (by decide)
    rw [hhead x hx]
    rfl
  have hleft {z : List Char} {k : Nat} (hz : unspaced z = List.replicate k ')') :
      unspaced (leftBehind true z) = List.replicate (k - 1) ')' := by
    rw [leftBehind, hz]
    cases k with
    | zero => rfl
    | succ k => exact unspaced_closeBrackets k
  have hleaves (i : Nat) :
      unspaced ((leftBehind true)^[i] z) = List.replicate (k - i) ')' := by
    induction i with
    | zero => exact hz
    | succ i ih =>
      rw [Function.iterate_succ_apply', hleft ih, Nat.sub_sub]
  exact fun i _ => hfirst (hleaves i)

section Readings

variable {α : Type} [Arithmetic α]

/-! ## Reading a text with an end behind it -/

namespace Reads

variable {b : Bool} {terms : List (Term α)} {s r z : List Char} {v : α}

/-- **What a scope leaves** is told by the brackets. -/
theorem rest_eq (h : Reads b terms s v r) :
    r = if closesAt b (reach 0 s).2 then (reach 0 s).2.tail else (reach 0 s).2 := by
  let f : Frame α := { scope := { closesGroup := b, terms := terms } }
  have hread := f.reads_evaluate (.ofList s) rfl
  have hreach := f.reaches_evaluate (.ofList s) rfl (.inl rfl)
  exact (hread.unique h).2.trans hreach.rest

/-- A group that closes in a text leaves what is behind its bracket. -/
theorem rest_of_closeBracket (h : Reads true terms s v r) (hs : (reach 0 s).2.head? = some ')') :
    r = (reach 0 s).2.tail := by
  rw [h.rest_eq, if_pos]
  rw [closesAt, hs]
  rfl

/-- **A group that closes in a text is read in every longer one**, whatever is
still open behind it. -/
theorem append_of_closed (h : Reads true terms s v r) (hs : (reach 0 s).2.head? = some ')')
    (hz : KeepsPieces s z) : Reads true terms (s ++ z) v (r ++ z) := by
  generalize hkind : true = b at h
  induction h with
  | @literal _ _ s _ _ _ _ _ hpiece _ ih =>
    rw [Piece.reach_of_first_literal hpiece] at hs
    have hkept := hz s List.suffix_rfl (Piece.unspaced_ne_nil (hpiece ▸ Piece.noConfusion))
    exact .literal (hkept.trans (congrArg _ hpiece))
      (ih hs (hz.of_suffix (Piece.suffix_of_first_literal hpiece)) hkind).behind_spaces
  | @group _ _ s _ _ _ _ _ _ hpiece hgroup _ ihgroup ih =>
    rw [Piece.reach_of_first_group hpiece, reach_succ] at hs
    split at hs
    · rename_i hclosed
      rw [← hgroup.rest_of_closeBracket hclosed] at hs
      have hkept := hz s List.suffix_rfl (Piece.unspaced_ne_nil (hpiece ▸ Piece.noConfusion))
      have hz' := hz.of_suffix (Piece.suffix_of_first_group hpiece)
      exact .group (hkept.trans (congrArg _ hpiece)) (ihgroup hclosed hz' rfl).behind_spaces
        (ih hs (hz'.of_suffix hgroup.suffix) hkind)
    · rename_i hopen
      exact absurd hs hopen
  | @stop b terms s hpiece =>
    subst hkind
    rw [Piece.reach_of_first_stop hpiece] at hs
    obtain ⟨t, ht⟩ : ∃ t, unspaced s = ')' :: t := List.head?_eq_some_iff.mp hs
    have hkept := hz s List.suffix_rfl (ht ▸ List.cons_ne_nil _ t)
    rw [leftBehind_of_closeBracket ht,
      ← leftBehind_of_closeBracket (unspaced_append_of_cons ht z)]
    exact .stop (hkept.trans (congrArg _ hpiece))

/-- **A text that ends the open scopes does not count.** A scope that comes to
the end of its text with `d` groups open comes to the same with such a text
behind, and leaves what all of them have left of it. -/
theorem append_of_open (h : Reads b terms s v r) {d : Nat} (hs : reach 0 s = (d, []))
    (hz : EndsScopes d z) :
    Reads b terms (s ++ z) v (leftBehind b ((leftBehind true)^[d] z)) := by
  have hstop : Piece.first z = .stop := hz 0 (Nat.zero_le d)
  have hfirst := Piece.first_append_of_stop hstop
  induction h generalizing d with
  | literal hpiece _ ih =>
    rw [Piece.reach_of_first_literal hpiece] at hs
    exact .literal ((hfirst _).trans (congrArg _ hpiece)) (ih hs hz).behind_spaces
  | @group b terms s t m r o w v hpiece hgroup h ihgroup ih =>
    have hpiece' := (hfirst s).trans (congrArg _ hpiece)
    rw [Piece.reach_of_first_group hpiece, reach_succ] at hs
    split at hs
    · -- The group is closed, and what is open is open behind it.
      rename_i hclosed
      rw [← hgroup.rest_of_closeBracket hclosed] at hs
      exact .group hpiece' (hgroup.append_of_closed hclosed
        (keepsPieces_of_stop hstop _)).behind_spaces (ih hs hz)
    · -- The group is open, and nothing is behind it that the scope could read.
      obtain ⟨rfl, hnil⟩ := Prod.mk.inj hs
      have hm : m = [] := by
        rw [hgroup.rest_eq, hnil, closesAt_nil]
        rfl
      obtain ⟨rfl, _⟩ := (Reads.stop (hm ▸ rfl)).unique h
      have hread := ihgroup (Prod.ext rfl hnil) fun i hi => hz i (Nat.le_succ_of_le hi)
      refine .group hpiece' hread.behind_spaces ?_
      rw [← Function.iterate_succ_apply' (leftBehind true)]
      exact .stop (hz _ (Nat.le_refl _))
  | @stop b terms s hpiece =>
    rw [Piece.reach_of_first_stop hpiece] at hs
    obtain ⟨rfl, hnil⟩ := Prod.mk.inj hs
    have htext : unspaced (s ++ z) = unspaced z := unspaced_append_of_nil hnil z
    rw [Function.iterate_zero_apply, leftBehind, ← htext, ← leftBehind]
    exact .stop ((hfirst _).trans (congrArg _ hpiece))

end Reads

/-! ## Evaluating such a text -/

theorem unspaced_prefix {s t : List Char} (h : s <+: t) : unspaced s <+: unspaced t := by
  obtain ⟨u, rfl⟩ := h
  rw [unspaced_append]
  split
  · rename_i hs
    rw [hs]
    exact List.nil_prefix
  · exact List.prefix_append _ _

/-- What is behind a text is stripped on the right only, so that it begins as
before or is gone. -/
theorem exists_strip_append {t : List Char} (ht : ∀ x ∈ t, x ∈ expressionChars)
    (hsome : Text.strip t ≠ []) (y : List Char) :
    ∃ z, unspaced z <+: unspaced y ∧ Text.strip (t ++ y) = Text.strip t ++ z := by
  by_cases hy : Text.strip y = []
  · refine ⟨[], List.nil_prefix, ?_⟩
    rw [Text.strip_append_of_blank_right t hy, List.append_nil]
  · obtain ⟨w, hw, hsplit⟩ := exists_dropWhile_eq_strip_append ht
    refine ⟨w ++ y.rdropWhile Text.isBlank, ?_, ?_⟩
    · rw [unspaced_append_of_nil hw]
      exact unspaced_prefix (List.rdropWhile_prefix _ _)
    · rw [Text.strip_append hsome hy, hsplit, List.append_assoc]

/-- **What only ends the open scopes of a text** does not change its value. -/
theorem number_append_of_open {t y : List Char} {d : Nat} (ht : reach 0 t = (d, []))
    (hsome : Text.strip t ≠ []) (hy : ∀ z, unspaced z <+: unspaced y → EndsScopes d z) :
    (evaluateChars (α := α) (t ++ y)).1.number = (evaluateChars (α := α) t).1.number := by
  obtain ⟨z, hz, hstrip⟩ := exists_strip_append (reach_eq_nil_iff.mp ht).1 hsome y
  have hread := (reads_evaluateChars (α := α) t).append_of_open (reach_strip ht) (hy z hz)
  rw [← hstrip] at hread
  exact hread.number_eq

end Readings

/-! ## Beginnings of expressions -/

/-- **A beginning of an expression**: a text in its characters that closes
nothing that it has not opened before. -/
structure IsBeginning (s : List Char) : Prop where
  /-- It is written in the characters of an expression. -/
  chars : ∀ x ∈ s, x ∈ expressionChars
  /-- No beginning of it closes more than it opened. -/
  opened : ∀ p, p <+: s → p.count ')' ≤ p.count '('

/-- How many brackets a text leaves open. -/
def openBrackets (s : List Char) : Nat :=
  s.count '(' - s.count ')'

/-- **A beginning of an expression is a text whose brackets lead to its end.** -/
theorem isBeginning_iff_reach {s : List Char} :
    IsBeginning s ↔ reach 0 s = (openBrackets s, []) := by
  rw [reach_eq_nil_iff]
  constructor
  · intro h
    refine ⟨h.chars, fun p hp => ?_, ?_⟩
    · rw [Nat.zero_add]
      exact h.opened p hp
    · rw [Nat.zero_add, openBrackets, Nat.sub_add_cancel (h.opened s List.prefix_rfl)]
  · rintro ⟨hchars, hopen, _⟩
    refine ⟨hchars, fun p hp => ?_⟩
    have := hopen p hp
    rwa [Nat.zero_add] at this

namespace IsBeginning

variable {t : List Char}

/-- A beginning that is blank is made of spaces. -/
theorem eq_space_of_strip (ht : IsBeginning t) (hblank : Text.strip t = []) {y : Char}
    (hy : y ∈ t) : y = ' ' := by
  have hall := List.dropWhile_eq_nil_iff.mp (Text.strip_eq_nil_iff.mp hblank)
  exact beq_iff_eq.mp ((isBlank_eq_of_mem (ht.chars y hy)).symm.trans (hall y hy))

/-- **Closing what is open** makes a beginning an expression. -/
theorem isExpression_append (ht : IsBeginning t) :
    IsExpression (t ++ List.replicate (openBrackets t) ')') := by
  have hclose (d : Nat) : reach d (List.replicate d ')') = (0, []) := by
    induction d with
    | zero => rfl
    | succ d ih =>
      rw [List.replicate_succ, reach_succ_closeBracket]
      exact ih
  rw [isExpression_iff_reach, reach_append_eq, isBeginning_iff_reach.mp ht]
  exact hclose _

end IsBeginning

/-- **Trailing text is ignored.** Behind a beginning of an expression that is
not blank, from a foreign character on nothing counts, and nothing counts from
a closing bracket on that nothing has opened. However many groups are open
there, the text has the value that it has without. -/
theorem evaluate_append_trailing {t : String} (ht : IsBeginning t.toList)
    (hsome : ∃ y ∈ t.toList, y ≠ ' ') {x : Char}
    (hx : x ∉ expressionChars ∨ x = ')' ∧ openBrackets t.toList = 0) (r : String) :
    evaluate (t ++ String.singleton x ++ r) = evaluate t := by
  obtain ⟨y, hy, hspace⟩ := hsome
  have hblank : Text.strip t.toList ≠ [] := fun h => hspace (ht.eq_space_of_strip h hy)
  have hrest : unspaced (x :: r.toList) = x :: r.toList := by
    refine unspaced_of_head? fun h => ?_
    obtain rfl := Option.some.inj h
    rcases hx with hx | ⟨hx, _⟩
    · exact hx (by decide)
    · exact absurd hx (by decide)
  have htext : (t ++ String.singleton x ++ r).toList = t.toList ++ x :: r.toList := by simp
  unfold evaluate
  rw [htext]
  refine number_append_of_open (isBeginning_iff_reach.mp ht) hblank fun z hz => ?_
  have hhead : ∀ a ∈ (unspaced z).head?, a = x := by
    intro a ha
    obtain ⟨u, hu⟩ := List.head?_eq_some_iff.mp ha
    rw [hrest, hu] at hz
    exact (List.cons_prefix_cons.mp hz).1
  rcases hx with hx | ⟨rfl, hclosed⟩
  · exact endsScopes_of_foreign (fun a ha => hhead a ha ▸ hx) _
  · -- Only the outermost scope is open, and it has no closing bracket.
    rw [hclosed]
    intro i hi
    obtain rfl := Nat.le_zero.mp hi
    refine Piece.first_of_endsPlain (fun a ha => ?_) fun h => absurd (hhead _ h) (by decide)
    rw [hhead a ha]
    rfl

/-- In `2*(3+(4` two groups are open where the question mark comes. -/
theorem evaluate_append_trailing_open :
    IsBeginning "2*(3+(4".toList ∧ (∃ y ∈ "2*(3+(4".toList, y ≠ ' ') ∧ '?' ∉ expressionChars
      ∧ evaluate ("2*(3+(4" ++ String.singleton '?' ++ "5))") = evaluate "2*(3+(4" := by
  have ht : IsBeginning "2*(3+(4".toList := isBeginning_iff_reach.mpr rfl
  have hsome : ∃ y ∈ "2*(3+(4".toList, y ≠ ' ' := ⟨'2', by decide, by decide⟩
  have hx : '?' ∉ expressionChars := by decide
  exact ⟨ht, hsome, hx, evaluate_append_trailing ht hsome (.inl hx) "5))"⟩

/-- **Missing closing brackets are read as if they were at the end.** A
beginning of an expression has the same value with any number of the closing
brackets that it lacks; and with all of them it is balanced for strict mode,
with the value that the permissive one gives without. -/
theorem evaluate_append_closeBrackets {t : String} (ht : IsBeginning t.toList) :
    (∀ k ≤ openBrackets t.toList,
        evaluate (t ++ String.ofList (List.replicate k ')')) = evaluate t)
      ∧ let closed := t ++ String.ofList (List.replicate (openBrackets t.toList) ')')
        (tryEvaluate true closed).verdict ≠ .unbalanced
          ∧ (tryEvaluate true closed).value = (tryEvaluate false t).value := by
  have hvalue (k : Nat) (hk : k ≤ openBrackets t.toList) :
      evaluate (t ++ String.ofList (List.replicate k ')')) = evaluate t := by
    unfold evaluate
    rw [String.toList_append, String.toList_ofList]
    by_cases hblank : Text.strip t.toList = []
    · -- A text of spaces has nothing to close.
      have hnone : t.toList.count '(' = 0 := by
        rw [List.count_eq_zero]
        exact fun h => absurd (ht.eq_space_of_strip hblank h) (by decide)
      have hk' : k = 0 := by
        rw [openBrackets, hnone, Nat.zero_sub] at hk
        exact Nat.le_zero.mp hk
      rw [hk', List.replicate_zero, List.append_nil]
    · refine number_append_of_open (isBeginning_iff_reach.mp ht) hblank fun z hz => ?_
      rw [unspaced_closeBrackets, List.prefix_replicate_iff] at hz
      exact endsScopes_of_closeBrackets hz.2 _
  refine ⟨hvalue, ?_⟩
  intro closed
  have hbalanced : IsExpression (Text.strip closed.toList) := by
    rw [String.toList_append, String.toList_ofList]
    exact ht.isExpression_append.strip
  rw [tryEvaluate_true, (isRefused_evaluateChars _).mpr hbalanced, if_neg Bool.false_ne_true,
    tryEvaluate_false, tryEvaluate_false, hvalue _ (Nat.le_refl _)]
  refine ⟨?_, rfl⟩
  unfold Outcome.verdict
  rw [if_neg (by simp)]
  split
  · exact Verdict.noConfusion
  · exact Verdict.noConfusion

/-- In `(1-(2*` the product lacks its operand, and two brackets are missing. -/
theorem evaluate_append_closeBrackets_two :
    IsBeginning "(1-(2*".toList ∧ openBrackets "(1-(2*".toList = 2
      ∧ evaluate ("(1-(2*" ++ String.ofList (List.replicate 2 ')')) = evaluate "(1-(2*" := by
  have ht : IsBeginning "(1-(2*".toList := isBeginning_iff_reach.mpr rfl
  exact ⟨ht, rfl, (evaluate_append_closeBrackets ht).1 2 (Nat.le_refl 2)⟩

end Reckon
