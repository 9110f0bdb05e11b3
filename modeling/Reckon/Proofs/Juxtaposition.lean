import Reckon.Proofs.Spaces

/-!
# Juxtaposed terms

Two terms with nothing between them are summed. So a plus may stand where one
part of a text ends and the next one begins with a group or a run of digits,
provided that the first part has ended there: its last operator has its
operand, and its last run does not go on into the second part.

Whether the place is reached, in which scope, and behind how many groups
does not matter. Up to the place both texts are read piece by piece in the
same way, since every piece that begins before it ends before it
(`KeepsPieces`). At the place the piece is the same with the plus and
without, and behind it the texts are. That is the content of
`Reads.replace_end`, which is about any two ends of a text that begin with
the same piece.
-/

namespace Reckon

/-! ## Texts that are complete -/

/-- **A text that no operator is left at the end of**: behind each of them there
is more than spaces. -/
def IsComplete (p : List Char) : Prop :=
  ∀ x t, x :: t <:+ p → writesOperator x = true → unspaced t ≠ []

namespace IsComplete

variable {p u z : List Char}

theorem of_suffix (h : IsComplete p) (hu : u <:+ p) : IsComplete u :=
  fun x t ht => h x t (ht.trans hu)

/-- Spaces at the end do not count. -/
theorem of_append {w : List Char} (h : IsComplete (p ++ w)) (hw : unspaced w = []) :
    IsComplete p := by
  rintro x t ⟨s, rfl⟩ hx ht
  refine h x (t ++ w) ⟨s, by simp⟩ hx ?_
  rw [unspaced_append_of_nil ht, hw]

/-- A text is complete if it ends, but for spaces, with a character that writes
no operator. -/
theorem of_getLast? (h : ∀ x ∈ (p.rdropWhile (· == ' ')).getLast?, writesOperator x = false) :
    IsComplete p := by
  rintro x t ⟨w, rfl⟩ hx ht
  have hspaces : t.rdropWhile (· == ' ') = [] := by
    rw [List.rdropWhile_eq_nil_iff, ← List.dropWhile_eq_nil_iff]
    exact ht
  have hchar : (x == ' ') = false := beq_false_of_ne (by rintro rfl; exact absurd hx (by decide))
  rw [Text.rdropWhile_append_cons (p := (· == ' ')) hchar, hspaces] at h
  exact absurd (h x (by simp)) (Bool.not_eq_false _ ▸ hx)

/-- A text that ends with this character is complete. -/
theorem concat {x : Char} (hx : Text.isBlank x = false)
    (hop : writesOperator x = false) : IsComplete (p ++ [x]) := by
  have hspace : ¬ (x == ' ') = true := fun h =>
    absurd hx (by rw [beq_iff_eq.mp h]; decide)
  refine of_getLast? fun y hy => ?_
  rw [List.rdropWhile_concat_neg (· == ' ') p x hspace, List.getLast?_concat] at hy
  exact Option.some.inj hy ▸ hop

/-- A complete text has a literal or a bracket in it, unless it is blank. -/
theorem literalText_ne_nil (h : IsComplete p) (hp : unspaced p ≠ []) : literalText p ≠ [] := by
  obtain ⟨x, t, ht⟩ := List.exists_cons_of_ne_nil hp
  have hsuffix : x :: t <:+ p := ht ▸ List.dropWhile_suffix _
  rw [literalText, ht]
  dsimp only
  split
  · rename_i hx
    exact h x t hsuffix hx
  · exact List.cons_ne_nil x t

/-- **A complete text keeps its pieces** with every text behind it that its last
run does not go on into. -/
theorem keepsPieces (h : IsComplete p) (hz : RunsApart p z) : KeepsPieces p z := by
  intro u hu hblank
  have hne := (h.of_suffix hu).literalText_ne_nil hblank
  refine Piece.first_append_of_start hne fun hrun => ?_
  have hsuffix := (literalText_suffix u).trans hu
  refine hz.of_unsigned hsuffix hne (fun x hx hsign => ?_) hrun
  -- A sign alone would be an operator without an operand.
  have hop : writesOperator x = true := by rcases hx with rfl | rfl <;> rfl
  exact absurd rfl (h x [] (hsign ▸ hsuffix) hop)

end IsComplete

/-! ## Two ends of a text -/

section Readings

variable {α : Type} [Arithmetic α]

namespace Reads

variable {b : Bool} {terms : List (Term α)} {s t p r z z' : List Char} {v : α}

/-- Where only spaces are before it, the end of a text begins the text. -/
theorem replace_end_of_blank (hsame : Piece.first z' = Piece.first z)
    (hgo : Piece.first z ≠ .stop) (h : Reads b terms s v r) (hs : unspaced s = unspaced (p ++ z))
    (hp : unspaced p = []) : Reads b terms (p ++ z') v r := by
  have hbegin (z : List Char) : Piece.first (p ++ z) = Piece.first z :=
    Piece.first_congr (unspaced_append_of_nil hp z)
  have hfirst : Piece.first s = Piece.first z := (Piece.first_congr hs).trans (hbegin z)
  refine h.of_first_eq (hfirst ▸ hgo) ?_
  rw [hbegin, hsame, hfirst]

/-- **Of two ends of a text that begin with the same piece** either can stand
for the other. What is left is the same, or it has the ends still ahead. -/
theorem replace_end (hz : KeepsPieces p z) (hz' : KeepsPieces p z')
    (hsame : Piece.first z' = Piece.first z) (hgo : Piece.first z ≠ .stop)
    (h : Reads b terms s v r) (hs : unspaced s = unspaced (p ++ z)) :
    ∃ r', Reads b terms (p ++ z') v r' ∧ LeftAhead p z z' r r' := by
  have hfirst {s p : List Char} (hz : KeepsPieces p z) (hs : unspaced s = unspaced (p ++ z))
      (hp : ¬ unspaced p = []) :
      Piece.first s = (Piece.first p).map fun t => unspaced (t ++ z) :=
    (Piece.first_congr hs).trans (hz p List.suffix_rfl hp)
  induction h generalizing p with
  | literal hpiece h ih =>
    by_cases hp : unspaced p = []
    · exact ⟨_, (Reads.literal hpiece h).replace_end_of_blank hsame hgo hs hp, .inl rfl⟩
    obtain ⟨t, ht, rfl⟩ := Piece.map_eq_literal ((hfirst hz hs hp).symm.trans hpiece)
    have hsuffix := Piece.suffix_of_first_literal ht
    obtain ⟨r', hread, hleft⟩ := ih (hz.of_suffix hsuffix) (hz'.of_suffix hsuffix)
      (unspaced_unspaced _)
    have hpiece' := (hz' p List.suffix_rfl hp).trans (congrArg _ ht)
    exact ⟨r', .literal hpiece' hread.behind_spaces, hleft.of_suffix hsuffix⟩
  | group hpiece hgroup h ihgroup ih =>
    by_cases hp : unspaced p = []
    · exact ⟨_, (Reads.group hpiece hgroup h).replace_end_of_blank hsame hgo hs hp, .inl rfl⟩
    obtain ⟨t, ht, rfl⟩ := Piece.map_eq_group ((hfirst hz hs hp).symm.trans hpiece)
    have hsuffix := Piece.suffix_of_first_group ht
    have hpiece' := (hz' p List.suffix_rfl hp).trans (congrArg _ ht)
    obtain ⟨m, hread, rfl | ⟨u, hu, rfl, rfl⟩⟩ := ihgroup (hz.of_suffix hsuffix)
      (hz'.of_suffix hsuffix) (unspaced_unspaced _)
    · -- Behind the group the texts are the same.
      exact ⟨_, .group hpiece' hread.behind_spaces h, .inl rfl⟩
    · -- The ends are behind the group.
      have husuffix := hu.trans hsuffix
      obtain ⟨r', hread', hleft⟩ := ih (hz.of_suffix husuffix) (hz'.of_suffix husuffix) rfl
      exact ⟨r', .group hpiece' hread.behind_spaces hread', hleft.of_suffix husuffix⟩
  | @stop b terms s hpiece =>
    by_cases hp : unspaced p = []
    · exact ⟨_, (Reads.stop hpiece).replace_end_of_blank hsame hgo hs hp, .inl rfl⟩
    have hstop := Piece.map_eq_stop ((hfirst hz hs hp).symm.trans hpiece)
    refine ⟨_, .stop ((hz' p List.suffix_rfl hp).trans (congrArg _ hstop)), .inr
      ⟨leftBehind b p, leftBehind_suffix b p, ?_, leftBehind_append hp b z'⟩⟩
    rw [← leftBehind_append hp, leftBehind, hs, ← leftBehind]

end Reads

end Readings

/-! ## A plus between two terms -/

/-- A group or a run of digits and points begins with this character. -/
def BeginsTerm (x : Char) : Prop :=
  x = '(' ∨ isNumeric x = true

namespace BeginsTerm

variable {x : Char}

theorem isBlank (h : BeginsTerm x) : Text.isBlank x = false := by
  rcases h with rfl | h
  · decide
  · rw [isBlank_eq_of_mem (mem_expressionChars_of_isNumeric h)]
    exact beq_false_of_ne (by rintro rfl; exact absurd h (by decide))

theorem unspaced_cons (h : BeginsTerm x) (t : List Char) : unspaced (x :: t) = x :: t := by
  refine unspaced_of_head? fun hx => ?_
  obtain rfl := Option.some.inj hx
  exact absurd h.isBlank (by decide)

/-- **The first piece is a term**, with a plus before it or without. -/
theorem first_cons (h : BeginsTerm x) (t : List Char) :
    Piece.first ('+' :: x :: t) = Piece.first (x :: t) ∧ Piece.first (x :: t) ≠ .stop := by
  have hplus : Piece.first ('+' :: x :: t) = Piece.operand .add (x :: t) := rfl
  rw [hplus, Piece.operand, Piece.first, h.unspaced_cons]
  rcases h with rfl | h
  · exact ⟨rfl, Piece.noConfusion⟩
  · have hopen : x ≠ '(' := by
      rintro rfl
      exact absurd h (by decide)
    rw [List.head?_cons, if_neg fun hx => hopen (Option.some.inj hx)]
    dsimp only
    rw [if_neg hopen, Operator.ofChar?_of_isNumeric h, h]
    exact ⟨rfl, Piece.noConfusion⟩

end BeginsTerm

/-- **A character that is not blank** stays, and what is before it is stripped on
the left only, and what is behind it on the right only. -/
theorem Text.strip_append_cons {x : Char} (hx : isBlank x = false) (s t : List Char) :
    strip (s ++ x :: t) = s.dropWhile isBlank ++ x :: t.rdropWhile isBlank := by
  show ((s ++ x :: t).dropWhile isBlank).rdropWhile isBlank = _
  rw [dropWhile_append_cons hx, rdropWhile_append_cons hx]

section Plus

variable {u t : List Char} {x : Char}

theorem strip_insert_plus (hx : BeginsTerm x) (u t : List Char) :
    Text.strip (u ++ '+' :: x :: t)
      = u.dropWhile Text.isBlank ++ '+' :: x :: t.rdropWhile Text.isBlank := by
  have hdrop : (x :: t).rdropWhile Text.isBlank = x :: t.rdropWhile Text.isBlank :=
    Text.rdropWhile_append_cons hx.isBlank [] t
  rw [Text.strip_append_cons (by decide), hdrop]

/-- **A plus between two terms** does not change the value of a text. -/
theorem number_insert_plus {α : Type} [Arithmetic α] (hx : BeginsTerm x) (hu : IsComplete u)
    (hruns : RunsApart u (x :: t)) :
    (evaluateChars (α := α) (u ++ '+' :: x :: t)).1.number
      = (evaluateChars (α := α) (u ++ x :: t)).1.number := by
  have hsuffix : u.dropWhile Text.isBlank <:+ u := List.dropWhile_suffix _
  have hcomplete := hu.of_suffix hsuffix
  have hkeeps : KeepsPieces (u.dropWhile Text.isBlank) (x :: t.rdropWhile Text.isBlank) :=
    hcomplete.keepsPieces (hruns.of_suffix hsuffix)
  have hkeeps' : KeepsPieces (u.dropWhile Text.isBlank) ('+' :: x :: t.rdropWhile Text.isBlank) :=
    hcomplete.keepsPieces fun _ _ _ y hy => Option.some.inj hy ▸ rfl
  obtain ⟨hfirst, hgo⟩ := hx.first_cons (t.rdropWhile Text.isBlank)
  have hread := reads_evaluateChars (α := α) (u ++ x :: t)
  rw [Text.strip_append_cons hx.isBlank] at hread
  obtain ⟨r, hread', _⟩ := hread.replace_end hkeeps hkeeps' hfirst hgo rfl
  rw [← strip_insert_plus hx] at hread'
  exact hread'.number_eq

/-- The brackets of a text do not see a plus. -/
theorem isExpression_insert_plus (hx : BeginsTerm x) (u t : List Char) :
    IsExpression (Text.strip (u ++ '+' :: x :: t)) ↔ IsExpression (Text.strip (u ++ x :: t)) := by
  rw [strip_insert_plus hx, Text.strip_append_cons hx.isBlank, isExpression_iff_reach,
    isExpression_iff_reach, reach_insert_plain_eq_nil_iff (by rfl)]

end Plus

/-- **Juxtaposition is addition.** A plus may stand, or be left out, between a
part of a text that is blank or ends – but for spaces – with a term, and a part
that begins with a group or with digits and points, unless two runs would meet
there. The text has the same value, and the same verdict in strict mode and
outside it. -/
theorem evaluate_insert_plus {u v : String}
    (hv : ∃ x ∈ v.toList.head?, x = '(' ∨ isNumeric x = true)
    (hu : ∀ x ∈ (u.toList.rdropWhile (· == ' ')).getLast?, x = ')' ∨ isNumeric x = true)
    (hrun : ¬ (u.toList.getLast?.any isNumeric = true ∧ v.toList.head?.any isNumeric = true)) :
    evaluate (u ++ v) = evaluate (u ++ "+" ++ v)
      ∧ ∀ strict : Bool,
        (tryEvaluate strict (u ++ v)).verdict = (tryEvaluate strict (u ++ "+" ++ v)).verdict := by
  obtain ⟨x, hx, hterm⟩ := hv
  obtain ⟨t, ht⟩ := List.head?_eq_some_iff.mp hx
  have htext : (u ++ "+" ++ v).toList = u.toList ++ '+' :: x :: t := by simp [ht]
  have htext' : (u ++ v).toList = u.toList ++ x :: t := by rw [String.toList_append, ht]
  have hcomplete : IsComplete u.toList := IsComplete.of_getLast? fun y hy => by
    rcases hu y hy with rfl | hy
    · rfl
    · rw [writesOperator, Operator.ofChar?_of_isNumeric hy]
      rfl
  have hruns : RunsApart u.toList (x :: t) := ht ▸ runsApart_of_not hrun
  have hvalue : evaluate (u ++ v) = evaluate (u ++ "+" ++ v) := by
    unfold evaluate
    rw [htext, htext', number_insert_plus hterm hcomplete hruns]
  refine ⟨hvalue, verdict_tryEvaluate_congr hvalue ?_⟩
  rw [htext, htext']
  exact (isExpression_insert_plus hterm _ _).symm

/-- `2(3)` is `2+3`, and `1 2` is `1+2`. -/
theorem evaluate_insert_plus_group_and_run :
    evaluate ("2" ++ "(3)") = evaluate ("2" ++ "+" ++ "(3)")
      ∧ evaluate ("1 " ++ "2") = evaluate ("1 " ++ "+" ++ "2") := by
  refine ⟨(evaluate_insert_plus ⟨'(', rfl, .inl rfl⟩ ?_ (by decide)).1,
    (evaluate_insert_plus ⟨'2', rfl, .inr rfl⟩ ?_ (by decide)).1⟩
  · rintro x ⟨⟩
    exact .inr rfl
  · rintro x ⟨⟩
    exact .inr rfl

end Reckon
