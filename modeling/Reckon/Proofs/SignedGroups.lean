import Reckon.Proofs.Absorption
import Reckon.Proofs.Continuations
import Reckon.Proofs.Spreading
import Reckon.Proofs.Summands

/-!
# Signs before groups

At the beginning of a scope a sign is an operator, and the group behind it is its
operand. Behind an operator it is not. What is read there is a literal, unless a
bracket stands right at the place, so a sign is taken for that of a literal even
if a bracket follows (`first_sign`). The literal has no digits and no value, and
the group is a term more, with a plus.

So `a*-(t)` is not `a*(-(t))`. The literal is an undefined operand, which every
operator but the power keeps, and then the value is undefined. Only a power of
one does not look at its exponent. What has to be known of `a` for that is the
power that its terms end in (`lastPower`): if it is one, the sign is lost, and
the group is added to what `a^(-(t))` comes to (`resultOf_append_signTerm`).

The powers are contracted first and in every part for themselves, so the terms
of `a` can be told apart into those that are settled by then and one that takes
in what follows (`exists_terms_fuse_pow`).
-/

namespace Reckon

open Binary64

/-! ## The powers at the end of a list -/

section Powers

variable {α : Type} [Arithmetic α] {t : Term α} {ts : List (Term α)}

/-- A power is applied to what is in front of it, and every other operand begins
anew. -/
def powerStep (v : α) (t : Term α) : α :=
  if t.operator = some .pow then t.apply v else t.number

/-- **The power that a list ends in**: its last operand that is no exponent, with
the exponents behind it. -/
def lastPower (ts : List (Term α)) : α :=
  ts.foldl powerStep Arithmetic.undefined

/-- **What is behind a list is contracted into the power that it ends in.** -/
theorem exists_terms_fuse_pow (t : Term α) (us : List (Term α)) :
    ∃ init b, b.number = us.foldl powerStep t.number
      ∧ ∀ ws, (fuse .pow t (us ++ ws)).terms = init ++ (fuse .pow b ws).terms := by
  induction us generalizing t with
  | nil => exact ⟨[], t, rfl, fun ws => rfl⟩
  | cons u us ih =>
    by_cases hu : u.operator = some .pow
    · obtain ⟨init, b, hb, hterms⟩ := ih (t.absorb u)
      refine ⟨init, b, ?_, fun ws => ?_⟩
      · rw [hb, List.foldl_cons, powerStep, if_pos hu]
        rfl
      · rw [List.cons_append, fuse_cons_of_eq hu, hterms]
    · obtain ⟨init, b, hb, hterms⟩ := ih u
      refine ⟨t :: init, b, ?_, fun ws => ?_⟩
      · rw [hb, List.foldl_cons, powerStep, if_neg hu]
      · rw [List.cons_append, fuse_cons_of_ne hu, Run.terms, hterms]
        rfl

/-- Behind an addition at least two more terms are summed. -/
theorem resultOf_of_leading (hadd : t.lead.operator = some .add) (hlength : 2 ≤ ts.length) :
    resultOf (t :: ts) = groupedSum (levels ts) (t.lead :: ts) := by
  match ts with
  | u :: v :: ts =>
    rw [resultOf, value_reduce_of_leading_add hadd, levels_cons_of_add hadd]
    rfl

theorem lastPower_led (hadd : t.lead.operator = some .add) (us : List (Term α)) :
    lastPower (led (t :: us)) = us.foldl powerStep t.lead.number := by
  show us.foldl powerStep (powerStep Arithmetic.undefined t.lead) = _
  rw [powerStep, if_neg (by rw [hadd]; exact fun h => Operator.noConfusion (Option.some.inj h))]

end Powers

/-! ## An undefined operand and a term behind it -/

/-- The term that an operator is with a sign behind it and no digit. -/
def signTerm (o : Operator) : Term Float where
  operator := some o
  value := some undefined

/-- **Does a list end in a power that is one?** It has to begin with a summand, or
there is no sum for it to be in. -/
def EndsInOne (ts : List (Term Float)) : Prop :=
  ts.head?.any (startsSummand ·.operator) = true ∧ lastPower (led ts) = 1

instance (ts : List (Term Float)) : Decidable (EndsInOne ts) :=
  inferInstanceAs (Decidable (_ ∧ _))

/-- One to any power is one, also to an undefined one. -/
theorem power_one (b : Float) : power 1 b = 1 := by
  have hone : ((1 : Float) == 1) = true := by decide +kernel
  rw [power, hone]
  split
  · rfl
  · rfl

/-- **An undefined exponent shows** over every other base. -/
theorem isNaN_power_undefined {v : Float} (hv : v ≠ 1) : (power v undefined).isNaN = true := by
  have hbase : (v == 1) = false := by
    refine Bool.eq_false_iff.mpr fun h => ?_
    rcases same_iff.mp (.inl h) with h | ⟨s, _, h⟩
    · exact hv h
    · cases s <;> exact absurd h (by decide +kernel)
  have hexponent : (undefined == 0) = false := by decide +kernel
  rw [isNaN_power (.inr isNaN_undefined), hexponent, hbase]
  rfl

/-- Every operator but the power keeps an undefined operand. -/
theorem spreads_isNaN {o : Operator} (ho : o ≠ .pow) : Spreads (Float.isNaN · = true) o := by
  intro v b h
  rw [o.isNaN_apply h, Operator.washes, beq_false_of_ne ho]
  rfl

section Appending

variable {t : Term Float} (hadd : t.lead.operator = some .add) (us : List (Term Float))

include hadd

/-- **A list with an undefined operand is undefined**, if it is there once the
powers are contracted. -/
theorem isNaN_resultOf {ws : List (Term Float)} (hlength : 2 ≤ (us ++ ws).length)
    (h : ∀ b : Term Float, b.number = lastPower (led (t :: us))
      → ∃ x ∈ (fuse .pow b ws).terms, x.number.isNaN = true) :
    (resultOf (t :: (us ++ ws))).isNaN = true := by
  have hstarts : startsSummand t.lead.operator = true := by rw [hadd]; rfl
  obtain ⟨init, b, hb, hterms⟩ := exists_terms_fuse_pow t.lead us
  obtain ⟨x, hx, hnan⟩ := h b (hb.trans (lastPower_led hadd us).symm)
  have hhead := operator_head_fuse .pow t.lead (us ++ ws)
  rw [resultOf_of_leading hadd hlength, ← groupedSum_fuse_pow hstarts]
  refine groupedSum_of_spreads (P := (Float.isNaN · = true)) isNaN_undefined (hhead ▸ hstarts)
    (fun o ho => spreads_isNaN ?_) ⟨x, ?_, hnan⟩
  · -- No power is left to lose it.
    rw [operators_cons_of_some (hhead.trans hadd)] at ho
    rcases List.mem_cons.mp ho with rfl | ho
    · exact Operator.noConfusion
    · exact (mem_operators_fuse.mp ho).2
  · show x ∈ (fuse .pow t.lead (us ++ ws)).terms
    rw [hterms]
    exact List.mem_append_right init hx

/-- A power behind one is one, whatever its exponent is. -/
theorem resultOf_append_of_one (hone : lastPower (led (t :: us)) = 1) (w : Float) :
    resultOf (t :: (us ++ [groupTerm .pow w]))
      = groupedSum (levels (us ++ [groupTerm .pow w])) (t.lead :: (us ++ [groupTerm .pow w])) := by
  cases us with
  | nil =>
    have hnumber : t.lead.number = 1 := by
      rw [← hone, lastPower_led hadd]
      rfl
    have hpair : groupedSum (levels [t.lead, groupTerm .pow w]) [t.lead, groupTerm .pow w]
        = zero false + power t.lead.number w := groupedSum_pair hadd rfl
    have hzero : zero false + (1 : Float) = 1 := by decide +kernel
    rw [levels_cons_of_add hadd, hnumber, power_one, hzero] at hpair
    show power (t.lead.apply (zero false)) w = _
    rw [Term.apply_of_add hadd, hnumber, hzero, power_one]
    exact hpair.symm
  | cons u us =>
    refine resultOf_of_leading hadd ?_
    simp

/-- **Behind a list that ends in one an undefined exponent is lost**, and what is
behind it is added. -/
theorem resultOf_append_signTerm_pow (hone : lastPower (led (t :: us)) = 1) (v w : Float) :
    resultOf (t :: (us ++ [signTerm .pow, groupTerm .add v]))
      = resultOf (t :: (us ++ [groupTerm .pow w])) + v := by
  have hstarts : startsSummand t.lead.operator = true := by rw [hadd]; rfl
  obtain ⟨init, b, hb, hterms⟩ := exists_terms_fuse_pow t.lead us
  have hb' : b.number = 1 := by rw [hb, ← lastPower_led hadd, hone]
  have habsorb : b.absorb (signTerm .pow) = b.absorb (groupTerm .pow w) := by
    show { b with value := some (power b.number undefined) }
      = { b with value := some (power b.number w) }
    rw [hb', power_one, power_one]
  -- With the powers contracted the one list is the other and the last term.
  have hlist : (fuse .pow t.lead (us ++ [signTerm .pow, groupTerm .add v])).terms
      = (fuse .pow t.lead (us ++ [groupTerm .pow w])).terms ++ [groupTerm .add v] := by
    rw [hterms, hterms, List.append_assoc]
    refine congrArg (init ++ ·) ?_
    show (fuse .pow (b.absorb (signTerm .pow)) [groupTerm .add v]).terms = _
    rw [habsorb]
    rfl
  obtain ⟨-, hfolded⟩ := List.cons.inj hlist
  have hlevels : levels (fuse .pow t.lead (us ++ [signTerm .pow, groupTerm .add v])).folded
      = levels (fuse .pow t.lead (us ++ [groupTerm .pow w])).folded := by
    rw [hfolded]
    exact levels_append_add rfl _
  rw [resultOf_append_of_one hadd us hone, resultOf_of_leading hadd (by simp),
    ← groupedSum_fuse_pow hstarts, ← groupedSum_fuse_pow hstarts, hlevels, hlist,
    groupedSum_append_add _ rfl]
  rfl

end Appending

/-- Behind a term that begins no summand nothing has a value. -/
theorem resultOf_of_not_starting {α : Type} [Arithmetic α] {t : Term α} {ts : List (Term α)}
    (h : startsSummand t.operator = false) (hlength : 2 ≤ ts.length) :
    resultOf (t :: ts) = Arithmetic.undefined := by
  match ts with
  | u :: v :: ts =>
    rw [resultOf, reduce_of_not_leading (Term.precedence_lead_pos h)]
    rfl

/-- **What a sign makes of a list that a group follows.** It is an undefined
operand, and the value is undefined; only as the exponent of a one it is lost,
and there the group is added to what any other exponent gives. -/
theorem resultOf_append_signTerm (ts : List (Term Float)) (o : Operator) (v w : Float) :
    resultOf (ts ++ [signTerm o, groupTerm .add v])
      = if o = .pow ∧ EndsInOne ts then resultOf (ts ++ [groupTerm o w]) + v else undefined := by
  cases ts with
  | nil =>
    have hfirst : ((signTerm o).lead.apply (zero false)).isNaN = true := by
      cases o <;> decide +kernel
    rw [if_neg fun h => Bool.false_ne_true h.2.1]
    exact isNaN_iff.mp (isStrict_add.isNaN_pack (.inl hfirst))
  | cons t us =>
    have hlength : 2 ≤ (us ++ [signTerm o, groupTerm .add v]).length := by simp
    cases hstarts : startsSummand t.operator with
    | false =>
      rw [if_neg fun h => Bool.false_ne_true (hstarts.symm.trans h.2.1)]
      exact resultOf_of_not_starting hstarts hlength
    | true =>
      have hadd : t.lead.operator = some .add := by rw [Term.operator_lead, if_pos hstarts]
      by_cases hpow : o = .pow
      · subst hpow
        by_cases hone : lastPower (led (t :: us)) = 1
        · rw [if_pos ⟨rfl, hstarts, hone⟩]
          exact resultOf_append_signTerm_pow hadd us hone v w
        · rw [if_neg fun h => hone h.2.2]
          refine isNaN_iff.mp (isNaN_resultOf hadd us hlength fun b hb => ?_)
          exact ⟨b.absorb (signTerm .pow), List.mem_cons_self, isNaN_power_undefined (hb ▸ hone)⟩
      · rw [if_neg fun h => hpow h.1]
        refine isNaN_iff.mp (isNaN_resultOf hadd us hlength fun b _ => ?_)
        have hne : (signTerm o).operator ≠ some .pow := fun h => hpow (Option.some.inj h)
        rw [fuse_cons_of_ne hne]
        exact ⟨signTerm o, List.mem_cons_of_mem _ List.mem_cons_self, isNaN_undefined⟩

/-! ## A sign and a group behind a text -/

section Texts

variable {s : Char} {t : List Char} (hs : s = '+' ∨ s = '-') (ht : IsExpression t)

include hs in
/-- **Behind an operator a sign before a bracket is a literal** of its own. -/
theorem first_sign (o : Operator) (y : List Char) :
    Piece.first (o.symbol :: s :: '(' :: y) = .literal o ⟨s == '-', []⟩ ('(' :: y) := by
  rcases hs with rfl | rfl
  · cases o <;> rfl
  · cases o <;> rfl

theorem first_symbol_openBracket (o : Operator) (y : List Char) :
    Piece.first (o.symbol :: '(' :: y) = .group o (unspaced y) := by
  cases o <;> rfl

include hs ht

/-- **The group behind the sign is a term more**, with a plus. -/
theorem reads_signed (o : Operator) (terms : List (Term Float)) :
    Reads false terms (o.symbol :: s :: '(' :: (t ++ [')']))
      (resultOf (terms ++ [signTerm o, groupTerm .add (evaluateChars (α := Float) t).1.number]))
      (leftBehind false []) := by
  have hgroup : Piece.first ('(' :: (t ++ [')'])) = .group .add (unspaced (t ++ [')'])) := rfl
  refine .literal (first_sign hs o _) (.group hgroup (reads_group ht []).behind_spaces ?_)
  rw [List.append_assoc]
  exact .stop rfl

/-- A group with a sign is an expression. -/
theorem isExpression_signed : IsExpression (s :: '(' :: (t ++ [')'])) := by
  have hplain : isPlain s = true := by
    rcases hs with rfl | rfl
    · rfl
    · rfl
  rw [isExpression_iff_reach, reach_plain hplain, reach_openBracket, ht.reach_append]
  rfl

/-- Where the sign is in a group of its own, the group is the operand. -/
theorem exists_reads_enclosed (o : Operator) (terms : List (Term Float)) :
    ∃ w, Reads false terms (o.symbol :: '(' :: (s :: '(' :: (t ++ [')']) ++ [')']))
      (resultOf (terms ++ [groupTerm o w])) (leftBehind false []) :=
  ⟨_, .group (first_symbol_openBracket o _)
    (reads_group (isExpression_signed hs ht) []).behind_spaces (.stop rfl)⟩

end Texts

/-- **Both texts as lists of terms**: behind those of the text in front there is an
undefined operand with a group behind it, or the group that the sign is in. -/
theorem exists_terms_signed {a t : List Char} {s x : Char} (o : Operator)
    (ha : IsExpression (Text.strip a)) (hlast : (a.rdropWhile (· == ' ')).getLast? = some x)
    (hend : isNumeric x = true ∨ x = ')') (hs : s = '+' ∨ s = '-') (ht : IsExpression t) :
    ∃ terms w, (Frame.endings { scope := .outermost }
        (Cursor.ofList (Text.strip a))).getLast? = some terms
      ∧ (evaluateChars (α := Float) (a ++ o.symbol :: s :: '(' :: (t ++ [')']))).1.number
        = resultOf (terms ++ [signTerm o,
            groupTerm .add (evaluateChars (α := Float) t).1.number])
      ∧ (evaluateChars (α := Float)
          (a ++ o.symbol :: '(' :: (s :: '(' :: (t ++ [')']) ++ [')']))).1.number
        = resultOf (terms ++ [groupTerm o w]) := by
  have hblank : Text.isBlank x = false := by
    rcases hend with h | rfl
    · exact BeginsTerm.isBlank (.inr h)
    · decide
  have hop : writesOperator x = false := by
    rcases hend with h | rfl
    · rw [writesOperator, Operator.ofChar?_of_isNumeric h]
      rfl
    · rfl
  obtain ⟨⟨u, hu⟩, z, hz, hstrip⟩ := exists_strip_append_closeBracket hlast hblank
  obtain ⟨terms, -, -, hterms, hread⟩ := exists_terms_evaluateChars (α := Float) ha
    (hu ▸ IsComplete.concat hblank hop)
  obtain ⟨w, henclosed⟩ := exists_reads_enclosed hs ht o terms
  have hsymbol : isNumeric o.symbol = false := by cases o <;> rfl
  -- What is read behind the text in front is read behind all of it.
  have hnumber (y : List Char) (v : Float)
      (hy : Reads false terms (o.symbol :: (y ++ [')'])) v (leftBehind false [])) :
      (evaluateChars (α := Float) (a ++ o.symbol :: (y ++ [')']))).1.number = v := by
    refine Reads.number_eq (r := leftBehind false []) ?_
    rw [show Text.strip (a ++ o.symbol :: (y ++ [')'])) = _ from hstrip (o.symbol :: y)]
    refine hread _ (not_isNumeric_head?_append hz (by rintro x ⟨⟩; exact hsymbol)) _ _ ?_
    exact hy.of_unspaced_eq (unspaced_append_of_nil hz _).symm
  exact ⟨terms, w, hterms, hnumber (s :: '(' :: t) _ (reads_signed hs ht o terms),
    hnumber ('(' :: s :: '(' :: (t ++ [')'])) _ henclosed⟩

/-- **A sign does not work on a group behind an operator.** The value is undefined,
so it is that of the group with the sign inside exactly if this is undefined too.
The exception is the power of a one, in a text that begins with a summand: there
the group is added, and it makes no difference only if adding it makes none. -/
theorem evaluate_signed_group {a t : String} {s : Char} (o : Operator)
    (ha : IsExpression (Text.strip a.toList))
    (hlast : ∃ x, (a.toList.rdropWhile (· == ' ')).getLast? = some x
      ∧ (isNumeric x = true ∨ x = ')'))
    (hs : s = '+' ∨ s = '-') (ht : IsExpression t.toList) :
    let operator := String.singleton o.symbol
    let sign := String.singleton s
    let signed := evaluate (a ++ operator ++ sign ++ "(" ++ t ++ ")")
    let enclosed := evaluate (a ++ operator ++ "(" ++ sign ++ "(" ++ t ++ "))")
    signed = (if o = .pow ∧ EndsInOne (scannedTerms a) then enclosed + evaluate t else undefined)
      ∧ (Same signed enclosed ↔ if o = .pow ∧ EndsInOne (scannedTerms a) then
          Same (enclosed + evaluate t) enclosed else enclosed.isNaN = true) := by
  intro operator sign signed enclosed
  obtain ⟨x, hx, hend⟩ := hlast
  obtain ⟨terms, w, hterms, hsigned, henclosed⟩ := exists_terms_signed o ha hx hend hs ht
  have hsigned' : signed = resultOf (terms ++ [signTerm o, groupTerm .add (evaluate t)]) := by
    refine Eq.trans (congrArg (fun c => (evaluateChars (α := Float) c).1.number) ?_) hsigned
    simp [operator, sign]
  have henclosed' : enclosed = resultOf (terms ++ [groupTerm o w]) := by
    refine Eq.trans (congrArg (fun c => (evaluateChars (α := Float) c).1.number) ?_) henclosed
    simp [operator, sign]
  have hvalue : signed
      = if o = .pow ∧ EndsInOne (scannedTerms a) then enclosed + evaluate t else undefined := by
    rw [hsigned', henclosed', scannedTerms_eq hterms]
    exact resultOf_append_signTerm terms o (evaluate t) w
  refine ⟨hvalue, ?_⟩
  rw [hvalue]
  split
  · exact Iff.rfl
  · exact Same.undefined_iff

/-- A factor with a sign: it makes the product undefined. -/
theorem evaluate_signed_group_factor :
    IsExpression (Text.strip "2".toList)
      ∧ ("2".toList.rdropWhile (· == ' ')).getLast? = some '2' ∧ isNumeric '2' = true
      ∧ IsExpression "3".toList
      ∧ evaluate ("2" ++ String.singleton '*' ++ String.singleton '-' ++ "(" ++ "3" ++ ")")
        = undefined := by
  have ha : IsExpression (Text.strip "2".toList) := isExpression_iff_reach.mpr rfl
  have ht : IsExpression "3".toList := isExpression_iff_reach.mpr rfl
  have hlast : ("2".toList.rdropWhile (· == ' ')).getLast? = some '2' := by decide
  have hsigned := (evaluate_signed_group .mul ha ⟨'2', hlast, .inl rfl⟩ (.inr rfl) ht).1
  rw [if_neg fun h => Operator.noConfusion h.1] at hsigned
  exact ⟨ha, hlast, rfl, ht, hsigned⟩

/-- **A signed group is not the group with the sign inside**: as a factor it makes
the product undefined, and as the exponent of a one it is a summand. -/
theorem not_same_evaluate_signed_group :
    (¬ ∀ (a t : String) (o : Operator) (s : Char), IsExpression (Text.strip a.toList)
        → (∃ x, (a.toList.rdropWhile (· == ' ')).getLast? = some x
          ∧ (x.isDigit = true ∨ x = ')'))
        → s = '+' ∨ s = '-' → IsExpression t.toList
        → Same (evaluate (a ++ String.singleton o.symbol ++ String.singleton s ++ "(" ++ t ++ ")"))
          (evaluate (a ++ String.singleton o.symbol ++ "(" ++ String.singleton s ++ "(" ++ t
            ++ "))")))
      ∧ evaluate "2*-(3)" = undefined ∧ evaluate "2*(-(3))" = -6
      ∧ evaluate "1^-(5)" = 6 ∧ evaluate "1^(-(5))" = 1 := by
  refine ⟨fun h => ?_, by decide +kernel, by decide +kernel, by decide +kernel, by decide +kernel⟩
  have hsame := h "2" "3" .mul '-' (isExpression_iff_reach.mpr rfl)
    ⟨'2', by decide, .inl (by decide)⟩ (.inr rfl) (isExpression_iff_reach.mpr rfl)
  exact absurd hsame (by decide +kernel)

end Reckon
