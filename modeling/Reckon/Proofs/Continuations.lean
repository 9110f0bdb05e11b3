import Reckon.Proofs.Happenings
import Reckon.Proofs.Juxtaposition
import Reckon.Proofs.Unclosed

/-!
# Texts that go on

A balanced text ends in its outermost scope, with the terms that this scope has
by then (`scannedTerms`). If there is more text behind it, the scope goes on
there with these terms, and what the whole comes to is told by them and by what
is behind (`exists_terms_evaluateChars`). The text has to be complete for that:
behind an operator the text would be read as its operand.
-/

namespace Reckon

section Behind

variable {α : Type} [Arithmetic α]

/-- **What is behind a balanced text is read by its outermost scope**, with the
terms that the scope has by then. -/
theorem Frame.exists_terms_evaluate (f : Frame α) (c : Cursor) (hgrown : f.scope.grown = true)
    {p : List Char} (hrest : unspaced c.rest = unspaced p) (hp : reach 0 p = (0, [])) :
    ∃ terms, (f.evaluate c).1.scope.terms = (reduce terms).terms
      ∧ (f.evaluate c).1.value = (reduce terms).value
      ∧ (f.endings c).getLast? = some terms
      ∧ ∀ z, KeepsPieces p z → ∀ v r, Reads f.scope.closesGroup terms z v r
        → Reads f.scope.closesGroup f.scope.terms (p ++ z) v r := by
  induction f, c using evaluate_induction generalizing p with
  | ended f c h =>
    rw [evaluate_of_ended h, endings_of_ended h]
    rw [Scope.rest_of_pass_ended h] at hrest
    refine ⟨f.scope.terms, rfl, rfl, rfl, fun z _ v r hread => hread.of_unspaced_eq ?_⟩
    rw [unspaced_append_of_nil hrest.symm]
  | stalled f c h =>
    exact absurd hgrown (Bool.eq_false_iff.mp (Scope.grown_of_pass_stalled h))
  | closed f c d h =>
    -- The closing bracket would be one that nothing has opened.
    rw [← reach_congr hrest, (Scope.plainTo_of_pass_closed h).2.reach_eq] at hp
    exact absurd (Prod.mk.inj hp).2 (List.cons_ne_nil _ _)
  | blank f c d h ih =>
    have htakes := Scope.takesFirst_of_pass h Pass.noConfusion Pass.noConfusion
    rw [evaluate_of_blank h, evaluate_idle, endings_of_blank h]
    rcases Piece.unspaced_of_first_stop ((Piece.first_congr hrest).symm.trans htakes.1) hp with
      ⟨hnil, _⟩ | ⟨t, ht⟩
    · refine ⟨f.scope.terms, rfl, rfl, rfl, fun z _ v r hread => hread.of_unspaced_eq ?_⟩
      rw [unspaced_append_of_nil hnil]
    · rw [(plainTo_unspaced p).reach_eq, ht] at hp
      exact absurd (Prod.mk.inj hp).2 (List.cons_ne_nil _ _)
  | literal f c o l d h ih =>
    have htakes := Scope.takesFirst_of_pass h Pass.noConfusion Pass.noConfusion
    have hfirst : Piece.first p = .literal o l (unspaced d.rest) :=
      (Piece.first_congr hrest).symm.trans htakes
    rw [Piece.reach_of_first_literal hfirst] at hp
    obtain ⟨terms, hterms, hvalue, hlast, hread⟩ := ih rfl (unspaced_unspaced _).symm hp
    rw [evaluate_of_literal h, endings_of_literal h]
    refine ⟨terms, hterms, hvalue, hlast, fun z hz v r hv => ?_⟩
    have hkept := hz p List.suffix_rfl (Piece.unspaced_ne_nil (hfirst ▸ Piece.noConfusion))
    have hz' := hz.of_suffix (Piece.suffix_of_first_literal hfirst)
    exact .literal (hkept.trans (congrArg _ hfirst)) (hread z hz' v r hv).behind_spaces
  | opened f c o d h ihgroup ih =>
    have htakes := Scope.takesFirst_of_pass h Pass.noConfusion Pass.noConfusion
    have hfirst : Piece.first p = .group o (unspaced d.rest) :=
      (Piece.first_congr hrest).symm.trans htakes
    have hgroup := (reads_evaluateGroup (α := α) d).behind_spaces
    rw [Piece.reach_of_first_group hfirst, reach_succ] at hp
    split at hp
    · rename_i hclosed
      rw [← hgroup.rest_of_closeBracket hclosed] at hp
      obtain ⟨terms, hterms, hvalue, hlast, hread⟩ := ih rfl rfl hp
      rw [evaluate_of_opened h, endings_of_opened h]
      refine ⟨terms, hterms, hvalue, ?_, fun z hz v r hv => ?_⟩
      · rw [List.getLast?_append, hlast]
        rfl
      · have hkept := hz p List.suffix_rfl (Piece.unspaced_ne_nil (hfirst ▸ Piece.noConfusion))
        have hz' := hz.of_suffix (Piece.suffix_of_first_group hfirst)
        exact .group (hkept.trans (congrArg _ hfirst))
          (hgroup.append_of_closed hclosed hz').behind_spaces
          (hread z (hz'.of_suffix hgroup.suffix) v r hv)
    · exact absurd (Prod.mk.inj hp).1 (Nat.succ_ne_zero _)

/-- **Behind a balanced text that is complete** its scope goes on with the terms
that it has, unless the last run of the text does. -/
theorem exists_terms_evaluateChars {t : List Char} (ht : IsExpression (Text.strip t))
    (hc : IsComplete (Text.strip t)) :
    ∃ terms, (evaluateChars (α := α) t).1.scope.terms = (reduce terms).terms
      ∧ (evaluateChars (α := α) t).1.value = (reduce terms).value
      ∧ (Frame.endings { scope := .outermost } (Cursor.ofList (Text.strip t))).getLast? = some terms
      ∧ ∀ z, (∀ x ∈ z.head?, isNumeric x = false) → ∀ v r, Reads false terms z v r
        → Reads false [] (Text.strip t ++ z) v r := by
  obtain ⟨terms, hterms, hvalue, hlast, hread⟩ := Frame.exists_terms_evaluate (α := α)
    { scope := .outermost } (.ofList (Text.strip t)) rfl rfl (ht.reach_eq 0)
  have heval : evaluateChars (α := α) t
      = Frame.evaluate { scope := .outermost } (.ofList (Text.strip t)) := Scope.evaluate_eq _ _
  rw [← heval] at hterms hvalue
  exact ⟨terms, hterms, hvalue, hlast, fun z hz => hread z (hc.keepsPieces fun _ _ _ => hz)⟩

end Behind

/-- Spaces in front keep a text from beginning with a digit. -/
theorem not_isNumeric_head?_append {w z : List Char} (hw : unspaced w = [])
    (hz : ∀ x ∈ z.head?, isNumeric x = false) : ∀ x ∈ (w ++ z).head?, isNumeric x = false := by
  cases w with
  | nil => exact hz
  | cons y w =>
    rintro x ⟨⟩
    rw [beq_iff_eq.mp (List.dropWhile_eq_nil_iff.mp hw y List.mem_cons_self)]
    rfl

/-- **A text with a closing bracket behind it** is stripped as if it were over, but
keeps the spaces at its end. -/
theorem exists_strip_append_closeBracket {a : List Char} {x : Char}
    (hlast : (a.rdropWhile (· == ' ')).getLast? = some x) (hx : Text.isBlank x = false) :
    (∃ u, Text.strip a = u ++ [x])
      ∧ ∃ w, unspaced w = [] ∧ ∀ y, Text.strip (a ++ (y ++ [')']))
        = Text.strip a ++ (w ++ (y ++ [')'])) := by
  obtain ⟨u, hu⟩ := List.getLast?_eq_some_iff.mp hlast
  let w := a.rtakeWhile (· == ' ')
  have hspaces : ∀ y ∈ w, (y == ' ') = true := fun y hy =>
    List.mem_rtakeWhile_imp (p := (· == ' ')) hy
  have ha : a = u ++ x :: w := by
    rw [← List.rdropWhile_append_rtakeWhile (l := a) (p := (· == ' ')), hu, List.append_assoc]
    rfl
  have hblank : w.rdropWhile Text.isBlank = [] := by
    refine List.rdropWhile_eq_nil_iff.mpr fun y hy => ?_
    rw [beq_iff_eq.mp (hspaces y hy)]
    rfl
  have hstrip : Text.strip a = u.dropWhile Text.isBlank ++ [x] := by
    rw [ha, Text.strip_append_cons hx, hblank]
  refine ⟨⟨_, hstrip⟩, w, List.dropWhile_eq_nil_iff.mpr hspaces, fun y => ?_⟩
  rw [hstrip, ha, List.append_assoc, List.cons_append, Text.strip_append_cons hx,
    ← List.append_assoc w, List.rdropWhile_concat_neg _ _ _ (by decide), List.append_assoc]
  exact List.append_cons _ x _

/-- **The terms that a text ends with**, before they are reduced: the last ones
that the notes on its evaluation tell of. -/
def scannedTerms (text : String) : List (Term Float) :=
  (((evaluationNotes text).filterMap Note.scanned?).getLast?).getD []

theorem scannedTerms_eq {text : String} {terms : List (Term Float)}
    (h : (Frame.endings { scope := .outermost }
      (Cursor.ofList (Text.strip text.toList))).getLast? = some terms) :
    scannedTerms text = terms := by
  unfold scannedTerms evaluationNotes
  rw [Scope.filterMap_scanned?_notes, h]
  rfl

end Reckon
