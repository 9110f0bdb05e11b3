import Mathlib.Data.List.DropRight
import Reckon.Proofs.Readings
import Reckon.Proofs.States
import Reckon.Proofs.Strict

/-!
# Groups are free of their context

The inside of a group is read with a text behind it, and as a text of its
own it is read to its end. The two readings go piece by piece the same way:
a text that the brackets lead to the end of can be read up to its last
piece without what is behind it, since a closing bracket goes on none of
them (`Piece.first_append`). Only the last step differs. The scope that has
the text to itself ends because there is no more; the group ends because
its bracket comes (`Reads.enclose`). Groups inside the text close inside
it, and what they leave is followed by what was behind (`Reads.append`).

So a group contributes the value of its inside as a text, whatever is
around it, and the scan goes on right behind its bracket. A text around a
group can only tell the group's value, which is the other half
(`Reads.replace_group`): of two groups of one value either can stand for
the other.
-/

namespace Reckon

section Readings

variable {α : Type} [Arithmetic α]

/-! ## Reading on with a text behind -/

/-- A scope that the brackets lead on from ends at the end of the text or
before a closing bracket. -/
theorem Piece.unspaced_of_first_stop {s : List Char} {d e : Nat} (h : first s = .stop)
    (hs : reach d s = (e, [])) :
    (unspaced s = [] ∧ e = d) ∨ ∃ t, unspaced s = ')' :: t := by
  have hfollows := follows_first s
  rw [h] at hfollows
  rw [(plainTo_unspaced s).reach_eq] at hs
  cases hc : unspaced s with
  | nil =>
    rw [hc, reach_nil] at hs
    exact .inl ⟨rfl, (congrArg Prod.fst hs).symm⟩
  | cons x t =>
    rw [hc] at hs
    obtain ⟨hplain, hopen⟩ := hfollows x (by rw [hc]; rfl)
    by_cases hclose : x = ')'
    · rw [hclose]
      exact .inr ⟨t, rfl⟩
    · rw [reach_foreign hplain hopen hclose] at hs
      exact absurd (congrArg Prod.snd hs) (by simp)

namespace Reads

variable {b : Bool} {terms : List (Term α)} {s r z : List Char} {v : α}

/-- **A group that closes in a text is read in every longer one**, and it
leaves what is behind the text as well. -/
theorem append (h : Reads true terms s v r) (hz : EndsPlain (unspaced z))
    (hopen : (unspaced z).head? ≠ some '(') {d : Nat} (hs : reach (d + 1) s = (0, [])) :
    reach d r = (0, []) ∧ Reads true terms (s ++ z) v (r ++ z) := by
  have hfirst (u : List Char) := Piece.first_append (s := u) hz fun h => absurd h hopen
  generalize hkind : true = b at h
  induction h generalizing d with
  | literal hpiece _ ih =>
    rw [Piece.reach_of_first_literal hpiece] at hs
    obtain ⟨hr, hread⟩ := ih hs hkind
    exact ⟨hr, .literal ((hfirst _).trans (congrArg _ hpiece)) hread.behind_spaces⟩
  | group hpiece _ _ ihgroup ih =>
    rw [Piece.reach_of_first_group hpiece] at hs
    obtain ⟨hm, hgroup⟩ := ihgroup hs rfl
    obtain ⟨hr, hread⟩ := ih hm hkind
    exact ⟨hr, .group ((hfirst _).trans (congrArg _ hpiece)) hgroup.behind_spaces hread⟩
  | @stop b terms s hpiece =>
    subst hkind
    rcases Piece.unspaced_of_first_stop hpiece hs with ⟨_, hd⟩ | ⟨t, ht⟩
    · exact absurd hd (Nat.succ_ne_zero d).symm
    · rw [(plainTo_unspaced s).reach_eq, ht, reach_succ_closeBracket] at hs
      rw [leftBehind_of_closeBracket ht,
        ← leftBehind_of_closeBracket (unspaced_append_of_cons ht z)]
      exact ⟨hs, .stop ((hfirst _).trans (congrArg _ hpiece))⟩

/-- **A text that leaves nothing open is read as the inside of a group**, and
the group ends with its bracket. -/
theorem enclose (h : Reads b terms s v r) (hs : reach 0 s = (0, [])) {q : List Char}
    (hz : unspaced z = ')' :: q) : Reads true terms (s ++ z) v q := by
  have hends : EndsPlain (unspaced z) := by
    rw [hz]
    rintro x ⟨⟩
    rfl
  have hopen : (unspaced z).head? ≠ some '(' := by
    rw [hz]
    exact fun h => absurd (Option.some.inj h) (by decide)
  have hfirst (u : List Char) := Piece.first_append (s := u) hends fun h => absurd h hopen
  induction h with
  | literal hpiece _ ih =>
    rw [Piece.reach_of_first_literal hpiece] at hs
    exact .literal ((hfirst _).trans (congrArg _ hpiece)) (ih hs).behind_spaces
  | group hpiece hgroup _ _ ih =>
    rw [Piece.reach_of_first_group hpiece] at hs
    obtain ⟨hm, hlonger⟩ := hgroup.append hends hopen hs
    exact .group ((hfirst _).trans (congrArg _ hpiece)) hlonger.behind_spaces (ih hm)
  | @stop b terms s hpiece =>
    rcases Piece.unspaced_of_first_stop hpiece hs with ⟨hnil, _⟩ | ⟨t, ht⟩
    · rw [← leftBehind_of_closeBracket ((unspaced_append_of_nil hnil z).trans hz)]
      exact .stop ((hfirst _).trans (congrArg _ hpiece))
    · rw [(plainTo_unspaced s).reach_eq, ht, reach_zero_closeBracket] at hs
      exact absurd (congrArg Prod.snd hs) (by simp)

/-- **Of two groups that read alike either can stand for the other** in a
text. What is left is the same, or it has the groups still ahead. -/
theorem replace_group {x y : List Char}
    (halike : ∀ w m, Reads (α := α) true [] x w m → Reads true [] y w m) {p : List Char}
    (h : Reads b terms (p ++ '(' :: x) v r) :
    ∃ r', Reads b terms (p ++ '(' :: y) v r'
      ∧ (r' = r ∨ ∃ u, r = u ++ '(' :: x ∧ r' = u ++ '(' :: y) := by
  generalize hs : p ++ '(' :: x = s at h
  induction h generalizing p with
  | literal hpiece _ ih =>
    subst hs
    rcases Piece.first_append_cases p with ⟨o, hfirst⟩ | hfirst
    · exact Piece.noConfusion ((hfirst x).symm.trans hpiece)
    · obtain ⟨u, hp, rfl⟩ := Piece.map_eq_literal ((hfirst x).symm.trans hpiece)
      obtain ⟨r', hread, hleft⟩ := ih rfl
      exact ⟨r', .literal ((hfirst y).trans (congrArg _ hp)) hread, hleft⟩
  | group hpiece hgroup h ihgroup ih =>
    subst hs
    rcases Piece.first_append_cases p with ⟨o, hfirst⟩ | hfirst
    · -- This is the group, and behind it the texts are the same.
      obtain ⟨rfl, rfl⟩ := Piece.group.inj ((hfirst x).symm.trans hpiece)
      have hy := halike _ _ (hgroup.of_unspaced_eq (unspaced_unspaced x))
      exact ⟨_, .group (hfirst y) hy.behind_spaces h, .inl rfl⟩
    · obtain ⟨u, hp, rfl⟩ := Piece.map_eq_group ((hfirst x).symm.trans hpiece)
      have hpiece := (hfirst y).trans (congrArg _ hp)
      -- The group is in an earlier one, or still ahead behind it.
      obtain ⟨m, hread, rfl | ⟨u', rfl, rfl⟩⟩ := ihgroup rfl
      · exact ⟨_, .group hpiece hread h, .inl rfl⟩
      · obtain ⟨r', hread', hleft⟩ := ih rfl
        exact ⟨r', .group hpiece hread hread', hleft⟩
  | @stop b terms s hpiece =>
    subst hs
    rcases Piece.first_append_cases p with ⟨o, hfirst⟩ | hfirst
    · exact Piece.noConfusion ((hfirst x).symm.trans hpiece)
    · have hp := Piece.map_eq_stop ((hfirst x).symm.trans hpiece)
      refine ⟨_, .stop ((hfirst y).trans (congrArg _ hp)), .inr ⟨leftBehind b p, ?_, ?_⟩⟩
      · exact leftBehind_append_openBracket b p x
      · exact leftBehind_append_openBracket b p y

end Reads

/-! ## The inside of a group -/

/-- Of the characters of an expression only the space is blank. -/
theorem isBlank_eq_of_mem {x : Char} (hx : x ∈ expressionChars) :
    Text.isBlank x = (x == ' ') := by
  have hall : expressionChars.all (fun x => Text.isBlank x == (x == ' ')) = true := rfl
  exact beq_iff_eq.mp (List.all_eq_true.mp hall x hx)

/-- Blanks among these characters are spaces. -/
theorem unspaced_of_isBlank {w : List Char} (hchars : ∀ x ∈ w, x ∈ expressionChars)
    (hw : ∀ x ∈ w, Text.isBlank x = true) : unspaced w = [] := by
  refine List.dropWhile_eq_nil_iff.mpr fun x hx => ?_
  rw [← isBlank_eq_of_mem (hchars x hx)]
  exact hw x hx

/-- **What is stripped off an expression** at its end are spaces. -/
theorem exists_dropWhile_eq_strip_append {t : List Char} (ht : ∀ x ∈ t, x ∈ expressionChars) :
    ∃ w, unspaced w = [] ∧ t.dropWhile Text.isBlank = Text.strip t ++ w := by
  refine ⟨(t.dropWhile Text.isBlank).rtakeWhile Text.isBlank, unspaced_of_isBlank ?_ ?_,
    List.rdropWhile_append_rtakeWhile.symm⟩
  · exact fun x hx =>
      ht x ((List.dropWhile_suffix _).subset ((List.rtakeWhile_suffix _ _).subset hx))
  · exact fun x hx => List.mem_rtakeWhile_imp hx

/-- **What is stripped off an expression** are the spaces around it. -/
theorem exists_eq_append_strip {t : List Char} (ht : ∀ x ∈ t, x ∈ expressionChars) :
    ∃ a w, unspaced a = [] ∧ unspaced w = [] ∧ t = a ++ (Text.strip t ++ w) := by
  obtain ⟨w, hw, hsplit⟩ := exists_dropWhile_eq_strip_append ht
  refine ⟨t.takeWhile Text.isBlank, w, unspaced_of_isBlank ?_ ?_, hw, ?_⟩
  · exact fun x hx => ht x ((List.takeWhile_prefix _).subset hx)
  · exact fun x hx => List.all_eq_true.mp List.all_takeWhile x hx
  · rw [← hsplit, List.takeWhile_append_dropWhile]

/-- **Where the brackets of a text lead to its end**, they do so without the
spaces around it. -/
theorem reach_strip {t : List Char} {d : Nat} (ht : reach 0 t = (d, [])) :
    reach 0 (Text.strip t) = (d, []) := by
  obtain ⟨a, w, ha, hw, htext⟩ := exists_eq_append_strip (reach_eq_nil_iff.mp ht).1
  have hplain {u : List Char} (hu : unspaced u = []) (d : Nat) : reach d u = (d, []) := by
    rw [(plainTo_unspaced u).reach_eq, hu, reach_nil]
  rw [htext, reach_append_eq, hplain ha, if_pos rfl, reach_append_eq] at ht
  dsimp only at ht
  split at ht
  · rename_i hnil
    rw [hplain hw] at ht
    have hdepth : (reach 0 (Text.strip t)).1 = d := congrArg Prod.fst ht
    exact Prod.ext hdepth hnil
  · rename_i hrest
    exact absurd (List.append_eq_nil_iff.mp (congrArg Prod.snd ht)).1 hrest

/-- An expression is one without the spaces around it. -/
theorem IsExpression.strip {t : List Char} (ht : IsExpression t) :
    IsExpression (Text.strip t) :=
  isExpression_iff_reach.mpr (reach_strip (ht.reach_eq 0))

/-- **A group is read as its inside is evaluated**, whatever is behind its
bracket. -/
theorem reads_group {t : List Char} (ht : IsExpression t) (q : List Char) :
    Reads true [] (t ++ ')' :: q) (evaluateChars (α := α) t).1.number q := by
  obtain ⟨a, w, ha, hw, htext⟩ := exists_eq_append_strip ht.chars
  have hbracket : unspaced (w ++ ')' :: q) = ')' :: q := unspaced_append_of_nil hw _
  refine ((reads_evaluateChars t).enclose (ht.strip.reach_eq 0) hbracket).of_unspaced_eq ?_
  conv_rhs => rw [htext]
  rw [List.append_assoc, unspaced_append_of_nil ha, List.append_assoc]

end Readings

/-! ## The text around a group -/

namespace Text

theorem dropWhile_append_cons {p : Char → Bool} {x : Char} (hx : p x = false)
    (s t : List Char) : (s ++ x :: t).dropWhile p = s.dropWhile p ++ x :: t := by
  rw [List.dropWhile_append, List.dropWhile_cons_of_neg (Bool.eq_false_iff.mp hx)]
  split
  · rename_i hnil
    rw [List.isEmpty_iff.mp hnil]
    rfl
  · rfl

theorem rdropWhile_append_cons {p : Char → Bool} {x : Char} (hx : p x = false)
    (s t : List Char) : (s ++ x :: t).rdropWhile p = s ++ x :: t.rdropWhile p := by
  unfold List.rdropWhile
  rw [List.reverse_append, List.reverse_cons, List.append_assoc, List.singleton_append,
    dropWhile_append_cons hx, List.reverse_append, List.reverse_cons, List.reverse_reverse,
    List.append_assoc, List.singleton_append]

/-- **The text with a group in it** is stripped on both sides of the group. -/
theorem strip_group (p t q : List Char) :
    strip (p ++ '(' :: (t ++ ')' :: q))
      = p.dropWhile isBlank ++ '(' :: (t ++ ')' :: q.rdropWhile isBlank) := by
  show ((p ++ '(' :: (t ++ ')' :: q)).dropWhile isBlank).rdropWhile isBlank = _
  have hassoc : p.dropWhile isBlank ++ '(' :: (t ++ ')' :: q)
      = (p.dropWhile isBlank ++ '(' :: t) ++ ')' :: q := by simp
  rw [dropWhile_append_cons (by decide), hassoc, rdropWhile_append_cons (by decide)]
  simp

end Text

section Around

variable {α : Type} [Arithmetic α] {t t' : List Char}

/-- **A text in brackets** has the value of the text. -/
theorem number_bracketed (ht : IsExpression t) :
    (evaluateChars (α := α) ('(' :: (t ++ [')']))).1.number
      = (evaluateChars (α := α) t).1.number := by
  refine Reads.number_eq (r := []) ?_
  rw [show Text.strip ('(' :: (t ++ [')'])) = _ from Text.strip_group [] t []]
  exact .group (Piece.first_append_openBracket (s := []) rfl _)
    (reads_group ht []).behind_spaces (.stop rfl)

/-- **Groups of one value** can stand for each other in every text. -/
theorem number_replace_group (ht : IsExpression t) (ht' : IsExpression t')
    (hvalue : (evaluateChars (α := α) t).1.number = (evaluateChars (α := α) t').1.number)
    (p q : List Char) :
    (evaluateChars (α := α) (p ++ '(' :: (t ++ ')' :: q))).1.number
      = (evaluateChars (α := α) (p ++ '(' :: (t' ++ ')' :: q))).1.number := by
  have halike (w : α) (m : List Char)
      (h : Reads true [] (t ++ ')' :: q.rdropWhile Text.isBlank) w m) :
      Reads true [] (t' ++ ')' :: q.rdropWhile Text.isBlank) w m := by
    obtain ⟨rfl, rfl⟩ := (reads_group ht _).unique h
    rw [hvalue]
    exact reads_group ht' _
  have hread := reads_evaluateChars (α := α) (p ++ '(' :: (t ++ ')' :: q))
  rw [Text.strip_group] at hread
  obtain ⟨r, hread', _⟩ := hread.replace_group halike
  rw [← Text.strip_group] at hread'
  exact hread'.number_eq.symm

/-- The brackets lead to the end of a text with one group exactly if they do
with the other. -/
theorem isExpression_replace_group (ht : IsExpression t) (ht' : IsExpression t')
    (p q : List Char) :
    IsExpression (p ++ '(' :: (t ++ ')' :: q))
      ↔ IsExpression (p ++ '(' :: (t' ++ ')' :: q)) := by
  have hgroup {t : List Char} (ht : IsExpression t) (d : Nat) :
      reach d ('(' :: (t ++ ')' :: q)) = reach d q := by
    rw [reach_openBracket, ht.reach_append, reach_succ_closeBracket]
  rw [isExpression_iff_reach, isExpression_iff_reach, reach_append_eq, reach_append_eq,
    hgroup ht, hgroup ht']
  split
  · rfl
  · simp

end Around

/-! ## Groups in a text -/

/-- The states that the evaluation of a text goes through. -/
def evaluationStates (text : String) : List (Machine Float) :=
  Machine.states { cursor := .ofList (Text.strip text.toList), top := { scope := .outermost } }

theorem toList_group (p t q : String) :
    (p ++ "(" ++ t ++ ")" ++ q).toList
      = p.toList ++ '(' :: (t.toList ++ ')' :: q.toList) := by
  simp [String.toList_append]

section Places

variable {p t q : String} {c : Cursor}

/-- **Behind the bracket that opens a group** there is its inside, the closing
bracket and the rest. -/
theorem rest_of_position
    (htext : c.text = Text.strip (p ++ "(" ++ t ++ ")" ++ q).toList)
    (hplace : c.position = (p.toList.dropWhile Text.isBlank).length + 1) :
    c.rest = t.toList ++ ')' :: q.toList.rdropWhile Text.isBlank := by
  rw [Cursor.rest_eq_drop, htext, hplace, toList_group, Text.strip_group, List.append_cons]
  exact List.drop_left' (by rw [List.length_append]; rfl)

/-- **Where the rest is ahead**, the group is passed with its brackets. -/
theorem position_of_rest
    (htext : c.text = Text.strip (p ++ "(" ++ t ++ ")" ++ q).toList)
    (hrest : c.rest = q.toList.rdropWhile Text.isBlank) :
    c.position = (p.toList.dropWhile Text.isBlank).length + 1 + t.toList.length + 1 := by
  have hlength := c.length_text
  rw [htext, hrest, toList_group, Text.strip_group] at hlength
  simp only [List.length_append, List.length_cons] at hlength
  omega

end Places

/-- **Groups are free of their context.** Let `t` be an expression. Wherever
the evaluation of a text reaches the bracket before it in `p(t)q`, one of
the states that follow has one term more in the same scope, with the value
that `t` has as a text, and goes on right behind the closing bracket. So a
text has the same value in brackets, and of two such expressions with one
value either can stand for the other in every text: the text has the same
value, and in strict mode and outside it the same verdict. -/
theorem group_contextFree {t : String} (ht : IsExpression t.toList) :
    (∀ p q : String, ∀ m ∈ evaluationStates (p ++ "(" ++ t ++ ")" ++ q),
      let scan := m.top.scope.scan m.cursor
      let place := (p.toList.dropWhile Text.isBlank).length
      scan.stop = .opened → scan.cursor.position = place + 1 →
        ∃ n ∈ m.states, n.below = m.below
          ∧ n.top.scope.terms = scan.scope.terms
            ++ [{ operator := scan.scope.pending, value := some (evaluate t), node := some () }]
          ∧ n.cursor.position = place + 1 + t.toList.length + 1)
      ∧ evaluate ("(" ++ t ++ ")") = evaluate t
      ∧ ∀ t' : String, IsExpression t'.toList →
        (evaluate t = evaluate t' ∨ (evaluate t).isNaN = true ∧ (evaluate t').isNaN = true) →
        ∀ p q : String,
          evaluate (p ++ "(" ++ t ++ ")" ++ q) = evaluate (p ++ "(" ++ t' ++ ")" ++ q)
          ∧ ∀ strict : Bool,
            (tryEvaluate strict (p ++ "(" ++ t ++ ")" ++ q)).verdict
              = (tryEvaluate strict (p ++ "(" ++ t' ++ ")" ++ q)).verdict := by
  refine ⟨?_, ?_, ?_⟩
  · intro p q m hm scan place hopened hplace
    have htext : m.cursor.text = Text.strip (p ++ "(" ++ t ++ ")" ++ q).toList :=
      Machine.text_of_mem_states hm
    have hrest := rest_of_position ((Scope.text_scan _ _).trans htext) hplace
    have hgroup := Frame.reads_evaluateGroup (α := Float) scan.cursor
    rw [hrest] at hgroup
    obtain ⟨hnumber, hleft⟩ := (reads_group ht _).unique hgroup
    have hstate := Machine.mem_states_of_opened hopened
    refine ⟨_, hstate, rfl, ?_, ?_⟩
    · rw [Frame.terms_attach, hnumber, evaluate]
    · exact position_of_rest ((Machine.text_of_mem_states hstate).trans htext) hleft
  · unfold evaluate
    rw [show ("(" ++ t ++ ")").toList = '(' :: (t.toList ++ [')']) by simp]
    exact number_bracketed ht
  · intro t' ht' hvalue p q
    have hequal : evaluate t = evaluate t' := by
      rcases hvalue with h | ⟨h, h'⟩
      · exact h
      · rw [Binary64.isNaN_iff.mp h, Binary64.isNaN_iff.mp h']
    have hwhole : evaluate (p ++ "(" ++ t ++ ")" ++ q) = evaluate (p ++ "(" ++ t' ++ ")" ++ q) := by
      unfold evaluate
      rw [toList_group, toList_group]
      exact number_replace_group ht ht' hequal _ _
    refine ⟨hwhole, verdict_tryEvaluate_congr hwhole ?_⟩
    rw [toList_group, toList_group, Text.strip_group, Text.strip_group]
    exact isExpression_replace_group ht ht' _ _

/-- In `2*(1+3)` the group is reached, and is the factor of the product; and it
may stand in brackets of its own. -/
theorem group_contextFree_factor :
    IsExpression "1+3".toList
      ∧ (∃ m ∈ evaluationStates ("2*" ++ "(" ++ "1+3" ++ ")" ++ ""),
        (m.top.scope.scan m.cursor).stop = .opened
          ∧ (m.top.scope.scan m.cursor).cursor.position = 2 + 1
          ∧ ∃ n ∈ m.states, n.cursor.position = 2 + 1 + 3 + 1
            ∧ n.top.scope.terms = (m.top.scope.scan m.cursor).scope.terms
              ++ [{ operator := some .mul, value := some (evaluate "1+3"), node := some () }])
      ∧ evaluate ("2*" ++ "(" ++ "1+3" ++ ")" ++ "")
        = evaluate ("2*" ++ "(" ++ "(1+3)" ++ ")" ++ "") := by
  have ht : IsExpression "1+3".toList := isExpression_iff_reach.mpr rfl
  have ht' : IsExpression "(1+3)".toList := isExpression_iff_reach.mpr rfl
  obtain ⟨hreached, hbracketed, hreplaced⟩ := group_contextFree ht
  have hstart : Text.strip ("2*" ++ "(" ++ "1+3" ++ ")" ++ "").toList
      = ['2', '*', '(', '1', '+', '3', ')'] := by
    rw [toList_group, Text.strip_group]
    rfl
  let m : Machine Float :=
    { cursor := .ofList ['2', '*', '(', '1', '+', '3', ')'], top := { scope := .outermost } }
  have hm : m ∈ evaluationStates ("2*" ++ "(" ++ "1+3" ++ ")" ++ "") := by
    unfold evaluationStates
    rw [hstart]
    exact Machine.mem_states_self _
  have hscan : m.top.scope.scan m.cursor = _ :=
    (Scope.scan_of_literal (o := .add) (l := ⟨false, ['2']⟩) rfl).trans
      (Scope.scan_of_opened (o := .mul) rfl)
  have hopened : (m.top.scope.scan m.cursor).stop = .opened := by rw [hscan]
  have hplace : (m.top.scope.scan m.cursor).cursor.position = 2 + 1 := by
    rw [hscan]
    decide
  have hpending : (m.top.scope.scan m.cursor).scope.pending = some .mul := by rw [hscan]
  obtain ⟨n, hn, _, hterms, hposition⟩ := hreached "2*" "" m hm hopened hplace
  rw [hpending] at hterms
  exact ⟨ht, ⟨m, hm, hopened, hplace, n, hn, hposition, hterms⟩,
    (hreplaced "(1+3)" ht' (.inl hbracketed.symm) "2*" "").1⟩

end Reckon
