import Reckon.Proofs.Margins
import Reckon.Proofs.Signs

/-!
# Spaces in a text

A space may stand between any two characters of a text except inside a
literal: between two characters of its run, or between its sign and the run.
Anywhere else the text with the space is read piece by piece as the text
without.

The induction goes over the evaluation of the text without the space and
builds the reading of the text with it. What is still ahead is `p ++ v` in the
one and `p ++ ' ' :: v` in the other, where `p` is what is left of the part
before the space. Either the first piece begins in `p`, and then it ends in
`p`, since its literal does not go on into `v` (`Piece.first_append_of_start`);
or there is nothing in `p` but spaces and perhaps an operator, and then a space
more does not count (`Piece.first_append_space`). From there on the two texts
are the same.
-/

namespace Reckon

/-! ## Pieces of a text in two parts -/

theorem literalText_unspaced (s : List Char) : literalText (unspaced s) = literalText s := by
  unfold literalText
  rw [unspaced_unspaced]

theorem literalText_suffix (s : List Char) : literalText s <:+ s := by
  have hs : unspaced s <:+ s := List.dropWhile_suffix _
  unfold literalText
  split
  · exact List.nil_suffix
  · rename_i x t hc
    rw [hc] at hs
    split
    · exact ((List.dropWhile_suffix _).trans (List.suffix_cons x t)).trans hs
    · exact hs

/-- A text whose first literal begins in its first part. -/
theorem literalText_append {s : List Char} (hs : literalText s ≠ []) (z : List Char) :
    literalText (s ++ z) = literalText s ++ z := by
  unfold literalText at hs ⊢
  cases hc : unspaced s with
  | nil =>
    rw [hc] at hs
    exact absurd rfl hs
  | cons x t =>
    rw [hc] at hs
    rw [unspaced_append_of_cons hc]
    dsimp only at hs ⊢
    split
    · rename_i hop
      rw [if_pos hop] at hs
      rw [unspaced_append, if_neg hs]
    · rfl

/-- **A literal that begins in a text ends in it**, if its run does not go on
behind the text. -/
theorem Literal.split_append {s z : List Char} (hs : s ≠ [])
    (hz : (∀ x ∈ unsigned s, isNumeric x = true) → ∀ x ∈ z.head?, isNumeric x = false) :
    split (s ++ z) = ((split s).1, (split s).2 ++ z) := by
  have hhead : (s ++ z).head? = s.head? := by
    cases s with
    | nil => exact absurd rfl hs
    | cons x s => rfl
  have hunsigned : unsigned (s ++ z) = unsigned s ++ z := by
    unfold unsigned
    rw [hhead]
    split
    · rw [List.drop_append_of_le_length (List.length_pos_iff.mpr hs)]
    · rfl
  obtain ⟨htake, hdrop⟩ := numericRun_append hz
  rw [split, hunsigned, hhead, htake, hdrop]
  rfl

/-- A space more where the text begins with spaces only. -/
theorem unspaced_append_space {s : List Char} (hs : unspaced s = []) (v : List Char) :
    unspaced (s ++ ' ' :: v) = unspaced (s ++ v) := by
  rw [unspaced_append_of_nil hs, unspaced_append_of_nil hs]
  rfl

namespace Piece

/-- **The first piece of a text ends in it**, if its literal begins there and
does not go on behind it. -/
theorem first_append_of_start {p z : List Char} (hp : literalText p ≠ [])
    (hz : (∀ x ∈ unsigned (literalText p), isNumeric x = true) →
      ∀ x ∈ z.head?, isNumeric x = false) :
    first (p ++ z) = (first p).map fun t => unspaced (t ++ z) := by
  unfold literalText at hp hz
  unfold first
  cases hc : unspaced p with
  | nil =>
    rw [hc] at hp
    exact absurd rfl hp
  | cons x t =>
    rw [hc] at hp hz
    rw [unspaced_append_of_cons hc]
    dsimp only at hp hz ⊢
    by_cases hopen : x = '('
    · rw [if_pos hopen, if_pos hopen]
      exact congrArg (group .add) (unspaced_unspaced_append t z).symm
    rw [if_neg hopen, if_neg hopen]
    rw [writesOperator] at hp hz
    cases hop : Operator.ofChar? x with
    | some o =>
      rw [hop, if_pos (Option.isSome_some)] at hp hz
      have htext : unspaced (t ++ z) = unspaced t ++ z := by rw [unspaced_append, if_neg hp]
      dsimp only
      unfold operand
      rw [htext, Literal.split_append hp hz]
      obtain ⟨y, u, hu⟩ := List.exists_cons_of_ne_nil hp
      rw [hu, List.cons_append, List.head?_cons, List.head?_cons]
      split
      · exact congrArg (group o) (unspaced_unspaced_append u z).symm
      · exact congrArg (literal o _) (unspaced_unspaced_append _ z).symm
    | none =>
      rw [hop, if_neg (by simp)] at hp hz
      dsimp only
      split
      · rw [← List.cons_append, Literal.split_append hp hz]
        exact congrArg (literal .add _) (unspaced_unspaced_append _ z).symm
      · rfl

/-- **A space more before the first literal** does not count. -/
theorem first_append_space {p : List Char} (hp : literalText p = []) (v : List Char) :
    first (p ++ ' ' :: v) = first (p ++ v) := by
  unfold literalText at hp
  unfold first
  cases hc : unspaced p with
  | nil => rw [unspaced_append_space hc]
  | cons x t =>
    rw [hc] at hp
    rw [unspaced_append_of_cons hc, unspaced_append_of_cons hc]
    dsimp only at hp ⊢
    rw [writesOperator] at hp
    cases hop : Operator.ofChar? x with
    | some o =>
      rw [hop, if_pos (Option.isSome_some)] at hp
      dsimp only
      unfold operand
      rw [unspaced_append_space hp]
    | none =>
      rw [hop, if_neg (by simp)] at hp
      exact absurd hp (List.cons_ne_nil x t)

end Piece

/-! ## Runs and signs at the end of a text -/

/-- A sign where a literal may begin begins one. -/
theorem Piece.first_of_sign {s t : List Char} {x : Char} (hx : x = '-' ∨ x = '+')
    (hs : literalText s = x :: t) : ∃ o l r, first s = literal o l r := by
  cases hc : unspaced s with
  | nil =>
    rw [literalText, hc] at hs
    exact absurd hs.symm (List.cons_ne_nil x t)
  | cons y u =>
    rw [literalText, hc] at hs
    rw [first, hc]
    dsimp only at hs ⊢
    cases hop : Operator.ofChar? y with
    | some o =>
      rw [writesOperator, hop, if_pos (Option.isSome_some)] at hs
      have hy : y ≠ '(' := (ne_bracket_of_isPlain (isPlain_of_ofChar? hop)).1
      have hopen : (unspaced u).head? ≠ some '(' := by
        rw [hs]
        rintro ⟨⟩
        exact absurd hx (by decide)
      rw [if_neg hy]
      dsimp only
      rw [operand, if_neg hopen]
      exact ⟨_, _, _, rfl⟩
    | none =>
      rw [writesOperator, hop, if_neg (by simp)] at hs
      obtain ⟨rfl, _⟩ := List.cons.inj hs
      rcases hx with rfl | rfl <;> exact absurd hop (by decide)

/-- **No run goes on** from one text into another. -/
def RunsApart (p v : List Char) : Prop :=
  ∀ x ∈ p.getLast?, isNumeric x = true → ∀ y ∈ v.head?, isNumeric y = false

/-- An end of a text has the same last character, if it has any. -/
theorem RunsApart.of_suffix {p u v : List Char} (h : RunsApart p v) (hu : u <:+ p) :
    RunsApart u v := by
  obtain ⟨w, rfl⟩ := hu
  intro x hx
  refine h x ?_
  rw [List.getLast?_append, hx]
  rfl

/-- **No sign is taken** by one of these passes right before a run that begins
the text `v`. -/
def SignsApart {α : Type} (passes : List (Scope α × Cursor)) (v : List Char) : Prop :=
  ∀ q ∈ passes, ∀ e, q.1.literalStart? q.2 = some e →
    ∀ x, x = '-' ∨ x = '+' → e.rest = x :: v → ∀ y ∈ v.head?, isNumeric y = false

theorem SignsApart.of_subset {α : Type} {qs qs' : List (Scope α × Cursor)} {v : List Char}
    (h : SignsApart qs v) (hsub : qs' ⊆ qs) : SignsApart qs' v :=
  fun q hq => h q (hsub hq)

/-- A run that begins with a text and goes on to its end goes on behind it only
from a numeric character or from a sign. -/
theorem RunsApart.of_unsigned {p s v : List Char} (h : RunsApart p v) (hs : s <:+ p)
    (hne : s ≠ [])
    (hsign : ∀ x, x = '-' ∨ x = '+' → s = [x] → ∀ y ∈ v.head?, isNumeric y = false)
    (hrun : ∀ x ∈ unsigned s, isNumeric x = true) : ∀ y ∈ v.head?, isNumeric y = false := by
  obtain ⟨x, u, rfl⟩ := List.exists_cons_of_ne_nil hne
  have hlast {w : List Char} (hw : w <:+ x :: u) (hwne : w ≠ [])
      (hall : ∀ y ∈ w, isNumeric y = true) : ∀ y ∈ v.head?, isNumeric y = false :=
    (h.of_suffix (hw.trans hs)) _ (List.getLast?_eq_some_getLast hwne)
      (hall _ (List.getLast_mem hwne))
  unfold unsigned at hrun
  split at hrun
  · rename_i hx
    rw [List.head?_cons, Option.any_some, Option.any_some, Bool.or_eq_true, beq_iff_eq,
      beq_iff_eq] at hx
    by_cases hu : u = []
    · exact hsign x hx (by rw [hu])
    · exact hlast (List.suffix_cons x u) hu hrun
  · exact hlast List.suffix_rfl hne hrun

/-! ## Reading a text with a space in it -/

section Readings

variable {α : Type} [Arithmetic α]

omit [Arithmetic α] in
/-- A pass before a sign that a literal may begin with reads one there. -/
theorem Scope.exists_literalStart_of_sign {s : Scope α} {c : Cursor} {x : Char} {t : List Char}
    (hs : s.grown = true) (hx : x = '-' ∨ x = '+') (hc : literalText c.rest = x :: t) :
    ∃ e, s.literalStart? c = some e ∧ e.rest = x :: t := by
  obtain ⟨o, l, r, hfirst⟩ := Piece.first_of_sign hx hc
  have hne : c.rest ≠ [] := fun h => by
    rw [h] at hc
    exact List.cons_ne_nil x t hc.symm
  have htakes := takesFirst_pass hne hs
  cases hp : s.pass c with
  | ended | stalled =>
    rw [hp] at htakes
    exact htakes.elim
  | closed d | blank d =>
    rw [hp] at htakes
    exact Piece.noConfusion (hfirst.symm.trans htakes.1)
  | opened o' d =>
    rw [hp] at htakes
    exact Piece.noConfusion (hfirst.symm.trans htakes)
  | literal o' l' d =>
    obtain ⟨e, he, _⟩ := exists_literalStart hp
    exact ⟨e, he, (rest_of_literalStart he).1.trans hc⟩

/-- **What is left of two texts** that begin with `p` is the same, or has their
ends ahead. -/
def LeftAhead (p z z' r r' : List Char) : Prop :=
  r' = r ∨ ∃ u, u <:+ p ∧ r = u ++ z ∧ r' = u ++ z'

theorem LeftAhead.of_suffix {p u z z' r r' : List Char} (h : LeftAhead u z z' r r')
    (hu : u <:+ p) : LeftAhead p z z' r r' :=
  h.imp_right fun ⟨w, hw, hr⟩ => ⟨w, hw.trans hu, hr⟩

/-- **What is left of the two texts** is the same, or has the second part
ahead in both. -/
def LeftApart (p v r r' : List Char) : Prop :=
  r' = r ∨ ∃ u, u <:+ p ∧ r = u ++ v ∧ r' = u ++ ' ' :: v

theorem LeftApart.of_suffix {p u v r r' : List Char} (h : LeftApart u v r r') (hu : u <:+ p) :
    LeftApart p v r r' :=
  LeftAhead.of_suffix h hu

namespace Reads

variable {b : Bool} {terms : List (Term α)} {s p v r : List Char} {w : α}

/-- **A space before the first literal** is read over. -/
theorem insert_space_of_start (h : Reads b terms s w r) (hs : unspaced s = unspaced (p ++ v))
    (hp : literalText p = []) : Reads b terms (p ++ ' ' :: v) w r := by
  by_cases hblank : unspaced p = []
  · exact h.of_unspaced_eq (hs.trans (unspaced_append_space hblank v).symm)
  · have hfirst : Piece.first (p ++ ' ' :: v) = Piece.first s := by
      rw [Piece.first_append_space hp, Piece.first_congr hs]
    refine h.of_first_eq (fun hstop => ?_) hfirst
    -- The first character of `p` is an operator, and no scope ends there.
    have hfollows := Piece.follows_first s
    rw [hstop] at hfollows
    obtain ⟨x, t, ht⟩ := List.exists_cons_of_ne_nil hblank
    have hplain := (hfollows x (by rw [hs, unspaced_append_of_cons ht]; rfl)).1
    rw [literalText, ht] at hp
    dsimp only at hp
    split at hp
    · rename_i hop
      rw [isPlain, show (Operator.ofChar? x).isSome = true from hop, Bool.or_true] at hplain
      exact absurd hplain Bool.noConfusion
    · exact absurd hp (List.cons_ne_nil x t)

/-- **A scope that ends before the space** ends with it as well. -/
theorem insert_space_of_stop (h : Reads b terms s w r) (hs : unspaced s = unspaced (p ++ v))
    (hstop : Piece.first s = .stop) :
    ∃ r', Reads b terms (p ++ ' ' :: v) w r' ∧ LeftApart p v r r' := by
  by_cases hblank : unspaced p = []
  · exact ⟨r, h.of_unspaced_eq (hs.trans (unspaced_append_space hblank v).symm), .inl rfl⟩
  obtain ⟨x, t, ht⟩ := List.exists_cons_of_ne_nil hblank
  have hfollows := Piece.follows_first s
  rw [hstop] at hfollows
  have hhead := hfollows x (by rw [hs, unspaced_append_of_cons ht]; rfl)
  have hfirst : Piece.first (p ++ ' ' :: v) = .stop := by
    refine Piece.first_of_endsPlain ?_ ?_
    · rw [unspaced_append_of_cons ht]
      rintro y ⟨⟩
      exact hhead.1
    · rw [unspaced_append_of_cons ht]
      exact fun h => hhead.2 (Option.some.inj h)
  cases h with
  | literal hpiece => exact Piece.noConfusion (hstop.symm.trans hpiece)
  | group hpiece => exact Piece.noConfusion (hstop.symm.trans hpiece)
  | stop =>
    refine ⟨_, .stop hfirst, .inr
      ⟨leftBehind b p, leftBehind_suffix b p, ?_, leftBehind_append hblank b _⟩⟩
    rw [← leftBehind_append hblank, leftBehind, hs, ← leftBehind]

end Reads

/-- **The first piece of both texts** is that of `p`, if its literal begins
there. -/
theorem Frame.first_insert_space {f : Frame α} {c : Cursor} (hgrown : f.scope.grown = true)
    {p v : List Char} (hrest : unspaced c.rest = unspaced (p ++ v)) (hruns : RunsApart p v)
    (hsigns : SignsApart (f.passes c) v) (hp : literalText p ≠ []) :
    Piece.first c.rest = (Piece.first p).map (fun t => unspaced (t ++ v))
      ∧ Piece.first (p ++ ' ' :: v)
        = (Piece.first p).map (fun t => unspaced (t ++ ' ' :: v)) := by
  refine ⟨?_, Piece.first_append_of_start hp fun _ => ?_⟩
  · rw [Piece.first_congr hrest]
    refine Piece.first_append_of_start hp fun hrun => ?_
    refine hruns.of_unsigned (literalText_suffix p) hp (fun x hx hsign => ?_) hrun
    have htext : literalText c.rest = x :: v := by
      rw [← literalText_unspaced, hrest, literalText_unspaced, literalText_append hp, hsign]
      rfl
    obtain ⟨e, he, hplace⟩ := Scope.exists_literalStart_of_sign hgrown hx htext
    exact hsigns _ (mem_passes_self f c) e he x hx hplace
  · rintro x ⟨⟩
    rfl

/-- **The text with the space is read as the text without is evaluated.** -/
theorem Frame.reads_insert_space (f : Frame α) (c : Cursor) (hgrown : f.scope.grown = true)
    {p v : List Char} (hrest : unspaced c.rest = unspaced (p ++ v)) (hruns : RunsApart p v)
    (hsigns : SignsApart (f.passes c) v) :
    ∃ r', Reads f.scope.closesGroup f.scope.terms (p ++ ' ' :: v) (f.evaluate c).1.number r'
      ∧ LeftApart p v (f.evaluate c).2.rest r' := by
  induction f, c using evaluate_induction generalizing p with
  | ended f c h =>
    refine (f.reads_evaluate c hgrown).insert_space_of_stop hrest ?_
    rw [Scope.rest_of_pass_ended h]
    rfl
  | stalled f c h =>
    exact absurd hgrown (Bool.eq_false_iff.mp (Scope.grown_of_pass_stalled h))
  | closed f c d h =>
    exact (f.reads_evaluate c hgrown).insert_space_of_stop hrest
      (Scope.takesFirst_of_pass h Pass.noConfusion Pass.noConfusion).1
  | blank f c d h ih =>
    exact (f.reads_evaluate c hgrown).insert_space_of_stop hrest
      (Scope.takesFirst_of_pass h Pass.noConfusion Pass.noConfusion).1
  | literal f c o l d h ih =>
    by_cases hp : literalText p = []
    · exact ⟨_, (f.reads_evaluate c hgrown).insert_space_of_start hrest hp, .inl rfl⟩
    obtain ⟨hfirst, hfirst'⟩ := first_insert_space hgrown hrest hruns hsigns hp
    have htakes := Scope.takesFirst_of_pass h Pass.noConfusion Pass.noConfusion
    obtain ⟨t, ht, hd⟩ := Piece.map_eq_literal (hfirst.symm.trans htakes)
    have hsuffix := Piece.suffix_of_first_literal ht
    rw [passes_of_literal h] at hsigns
    obtain ⟨r', hread, hleft⟩ := ih rfl hd.symm (hruns.of_suffix hsuffix)
      (hsigns.of_subset (List.subset_cons_self _ _))
    rw [evaluate_of_literal h]
    rw [ht] at hfirst'
    exact ⟨r', .literal hfirst' hread.behind_spaces, hleft.of_suffix hsuffix⟩
  | opened f c o d h ihgroup ih =>
    by_cases hp : literalText p = []
    · exact ⟨_, (f.reads_evaluate c hgrown).insert_space_of_start hrest hp, .inl rfl⟩
    obtain ⟨hfirst, hfirst'⟩ := first_insert_space hgrown hrest hruns hsigns hp
    have htakes := Scope.takesFirst_of_pass h Pass.noConfusion Pass.noConfusion
    obtain ⟨t, ht, hd⟩ := Piece.map_eq_group (hfirst.symm.trans htakes)
    have hsuffix := Piece.suffix_of_first_group ht
    rw [passes_of_opened h] at hsigns
    rw [evaluate_of_opened h]
    rw [ht] at hfirst'
    obtain ⟨m, hgroup, hm⟩ := ihgroup rfl hd.symm (hruns.of_suffix hsuffix)
      (hsigns.of_subset (List.subset_cons_of_subset _ (List.subset_append_left _ _)))
    rcases hm with hm | ⟨u, hu, hr, hm⟩
    · -- Behind the group the texts are the same.
      refine ⟨_, .group hfirst' hgroup.behind_spaces ?_, .inl rfl⟩
      rw [hm]
      exact ((f.await o).attach (evaluateGroup (α := α) d).1).reads_evaluate _ rfl
    · -- The space is behind the group.
      have husuffix := hu.trans hsuffix
      obtain ⟨r', hread, hleft⟩ := ih rfl (congrArg unspaced hr) (hruns.of_suffix husuffix)
        (hsigns.of_subset (List.subset_cons_of_subset _ (List.subset_append_right _ _)))
      subst hm
      exact ⟨r', .group hfirst' hgroup.behind_spaces hread, hleft.of_suffix husuffix⟩

end Readings

/-! ## Evaluating a text with a space in it -/

theorem head?_of_isPrefix {s t : List Char} (h : s <+: t) {x : Char} (hx : s.head? = some x) :
    t.head? = some x := by
  obtain ⟨u, rfl⟩ := h
  rw [List.head?_append, hx]
  rfl

/-- A space between two parts that are not blank stays between them. -/
theorem strip_insert_space {u v : List Char} (hu : Text.strip u ≠ []) (hv : Text.strip v ≠ []) :
    Text.strip (u ++ ' ' :: v)
      = u.dropWhile Text.isBlank ++ ' ' :: v.rdropWhile Text.isBlank := by
  have hspace : Text.strip (u ++ [' ']) ≠ [] := by
    rw [Text.strip_append_of_blank_right u (by rfl)]
    exact hu
  have hdrop : (u ++ [' ']).dropWhile Text.isBlank = u.dropWhile Text.isBlank ++ [' '] := by
    rw [List.dropWhile_append, if_neg]
    rw [List.isEmpty_iff, ← Text.strip_eq_nil_iff]
    exact hu
  rw [List.append_cons, Text.strip_append hspace hv, hdrop, ← List.append_cons]

/-- A space next to a blank part is stripped off. -/
theorem strip_insert_space_of_blank {u v : List Char}
    (h : Text.strip u = [] ∨ Text.strip v = []) :
    Text.strip (u ++ ' ' :: v) = Text.strip (u ++ v) := by
  have hspace : Text.strip (' ' :: v) = Text.strip v :=
    Text.strip_append_of_blank_left (s := [' ']) (by rfl) v
  rcases h with h | h
  · rw [Text.strip_append_of_blank_left h, Text.strip_append_of_blank_left h, hspace]
  · rw [Text.strip_append_of_blank_right u (hspace.trans h), Text.strip_append_of_blank_right u h]

/-- A plain character does not count for the brackets. -/
theorem reach_insert_plain_eq_nil_iff {x : Char} (hx : isPlain x = true) (u v : List Char) :
    reach 0 (u ++ x :: v) = (0, []) ↔ reach 0 (u ++ v) = (0, []) := by
  rw [reach_append_eq, reach_append_eq, reach_plain hx]
  split
  · rfl
  · rename_i h
    refine iff_of_false (fun he => ?_) fun he => ?_
    · exact h (List.append_eq_nil_iff.mp (congrArg Prod.snd he)).1
    · exact h (List.append_eq_nil_iff.mp (congrArg Prod.snd he)).1

/-- A text is an expression exactly if it is one with a space more. -/
theorem isExpression_insert_space (u v : List Char) :
    IsExpression (Text.strip (u ++ ' ' :: v)) ↔ IsExpression (Text.strip (u ++ v)) := by
  by_cases hblank : Text.strip u = [] ∨ Text.strip v = []
  · rw [strip_insert_space_of_blank hblank]
  · obtain ⟨hu, hv⟩ := not_or.mp hblank
    rw [strip_insert_space hu hv, Text.strip_append hu hv, isExpression_iff_reach,
      isExpression_iff_reach, reach_insert_plain_eq_nil_iff (by rfl)]

theorem runsApart_of_not {u v : List Char}
    (h : ¬ (u.getLast?.any isNumeric = true ∧ v.head?.any isNumeric = true)) :
    RunsApart u v := by
  intro x hx hnum y hy
  rw [hx, hy] at h
  exact Bool.eq_false_iff.mpr fun hnum' => h ⟨hnum, hnum'⟩

/-- What is stripped at the outer ends of two parts leaves the characters where
they meet. -/
theorem RunsApart.strip {u v : List Char} (h : RunsApart u v) :
    RunsApart (u.dropWhile Text.isBlank) (v.rdropWhile Text.isBlank) := by
  intro x hx hnum y hy
  refine h.of_suffix (List.dropWhile_suffix _) x hx hnum y ?_
  exact head?_of_isPrefix (List.rdropWhile_prefix _ _) hy

/-- A sign that no literal takes at the end of the first part. -/
theorem signsApart_of_not {u v : String} (hu : Text.strip u.toList ≠ [])
    (hv : Text.strip v.toList ≠ [])
    (h : ¬ (TakesSignAt (u ++ v) ((u.toList.dropWhile Text.isBlank).length - 1)
      ∧ v.toList.head?.any isNumeric = true)) :
    SignsApart (Frame.passes (α := Float) { scope := .outermost }
      (.ofList (Text.strip (u ++ v).toList))) (v.toList.rdropWhile Text.isBlank) := by
  intro q hq e he x hx hrest y hy
  rw [← evaluationPasses_eq] at hq
  have hsplit : e.text = u.toList.dropWhile Text.isBlank ++ v.toList.rdropWhile Text.isBlank := by
    rw [(Scope.rest_of_literalStart he).2, text_of_mem_evaluationPasses hq, String.toList_append,
      Text.strip_append hu hv]
  have hplace : e.position = (u.toList.dropWhile Text.isBlank).length - 1 := by
    have hlength := e.length_text
    rw [hsplit, hrest, List.length_append, List.length_cons] at hlength
    omega
  have hpeek : e.peek (fun x => x == '-' || x == '+') = true := by
    rw [Cursor.peek, Cursor.nextChar?, hrest]
    rcases hx with rfl | rfl <;> rfl
  refine Bool.eq_false_iff.mpr fun hnum => h ⟨⟨q, hq, e, he, hplace, hpeek⟩, ?_⟩
  rw [head?_of_isPrefix (List.rdropWhile_prefix _ _) hy]
  exact hnum

/-- **Spaces outside literals do not matter.** A space between two parts of a
text changes neither its value nor its verdict in strict mode, unless it would
stand in a literal: between two characters of a run, or between the run and a
sign that the literal begins with. -/
theorem evaluate_insert_space {u v : String}
    (hrun : ¬ (u.toList.getLast?.any isNumeric = true ∧ v.toList.head?.any isNumeric = true))
    (hsign : ¬ (TakesSignAt (u ++ v) ((u.toList.dropWhile Text.isBlank).length - 1)
      ∧ v.toList.head?.any isNumeric = true)) :
    evaluate (u ++ " " ++ v) = evaluate (u ++ v)
      ∧ (tryEvaluate true (u ++ " " ++ v)).verdict = (tryEvaluate true (u ++ v)).verdict := by
  have htext : (u ++ " " ++ v).toList = u.toList ++ ' ' :: v.toList := by simp
  have hvalue : evaluate (u ++ " " ++ v) = evaluate (u ++ v) := by
    by_cases hblank : Text.strip u.toList = [] ∨ Text.strip v.toList = []
    · unfold evaluate evaluateChars
      rw [htext, String.toList_append, strip_insert_space_of_blank hblank]
    · obtain ⟨hu, hv⟩ := not_or.mp hblank
      obtain ⟨r, hread, _⟩ := Frame.reads_insert_space (α := Float) { scope := .outermost }
        (.ofList (Text.strip (u ++ v).toList)) rfl
        (congrArg unspaced (by rw [String.toList_append]; exact Text.strip_append hu hv))
        (runsApart_of_not hrun).strip (signsApart_of_not hu hv hsign)
      rw [← strip_insert_space hu hv, ← htext] at hread
      rw [evaluate, hread.number_eq, evaluate, evaluateChars, Scope.evaluate_eq]
  refine ⟨hvalue, verdict_tryEvaluate_congr hvalue ?_ true⟩
  rw [htext, String.toList_append]
  exact isExpression_insert_space _ _

/-- The minus of `1-2` is an operator, and a space behind it does not count. -/
theorem evaluate_insert_space_minus :
    ¬ ("1-".toList.getLast?.any isNumeric = true ∧ "2".toList.head?.any isNumeric = true)
      ∧ ¬ (TakesSignAt ("1-" ++ "2") (("1-".toList.dropWhile Text.isBlank).length - 1)
        ∧ "2".toList.head?.any isNumeric = true)
      ∧ evaluate ("1-" ++ " " ++ "2") = evaluate ("1-" ++ "2") := by
  have hrun : ¬ ("1-".toList.getLast?.any isNumeric = true
      ∧ "2".toList.head?.any isNumeric = true) := by decide
  have hsign : ¬ (TakesSignAt ("1-" ++ "2") (("1-".toList.dropWhile Text.isBlank).length - 1)
      ∧ "2".toList.head?.any isNumeric = true) := by
    rintro ⟨⟨q, hq, e, he, hplace, hpeek⟩, _⟩
    have hmem : q ∈ Frame.passes (α := Float) { scope := .outermost }
        (.ofList ['1', '-', '2']) := by
      rw [evaluationPasses_eq] at hq
      exact hq
    rw [Frame.passes_of_literal (o := .add) (l := ⟨false, ['1']⟩) rfl,
      Frame.passes_of_literal (o := .sub) (l := ⟨false, ['2']⟩) rfl,
      Frame.passes_of_ended rfl] at hmem
    rcases List.mem_cons.mp hmem with rfl | hmem
    · obtain rfl := Option.some.inj he
      exact absurd hplace (by decide)
    rcases List.mem_cons.mp hmem with rfl | hmem
    · obtain rfl := Option.some.inj he
      exact absurd hplace (by decide)
    obtain rfl := List.mem_singleton.mp hmem
    exact Option.some_ne_none e (show none = some e from he).symm
  exact ⟨hrun, hsign, (evaluate_insert_space hrun hsign).1⟩

end Reckon
