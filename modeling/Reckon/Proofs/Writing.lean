import Mathlib.Data.List.DropRight
import Reckon.Outcome
import Reckon.Proofs.Brackets
import Reckon.Proofs.Happenings

/-!
# Reading undoes writing

An expression that is written item by item, each with its operator, is read
item by item. `Item` is such an item together with the spaces that it is
written with: before it, between its operator and its operand, and before
the closing bracket of a group. `Item.text` writes a list of them.

The characters alone do not say what they are. A minus may be an operator or
the sign of a literal, a bracket may follow an operator or stand bare, and a
run of digits ends only where something else begins. What decides is what
comes next, so the induction is over the items with any text behind them
that does not go on with the last run (`Frame.evaluate_text`).
`evaluate_text_eq_value` is the case of nothing behind.
-/

namespace Reckon

/-- **A sign in front of a literal.** -/
inductive Sign where
  | plus
  | minus
deriving Repr, DecidableEq

/-- How the sign is written. -/
def Sign.symbol : Sign → Char
  | plus => '+'
  | minus => '-'

/-- **The run of a literal**: digits and points, and at least one of them. -/
structure NumericRun where
  chars : List Char
  ne_nil : chars ≠ []
  numeric : ∀ x ∈ chars, isNumeric x = true

/-- A run begins with a numeric character. -/
theorem NumericRun.exists_cons (run : NumericRun) :
    ∃ x t, run.chars = x :: t ∧ isNumeric x = true := by
  obtain ⟨x, t, hxt⟩ := List.exists_cons_of_ne_nil run.ne_nil
  exact ⟨x, t, hxt, run.numeric x (hxt ▸ List.mem_cons_self)⟩

/-- **An item of an expression**, as it is written. -/
inductive Item where
  /-- A literal as the operand of an operator, with the spaces before the
  operator and behind it. -/
  | literal (before : Nat) (operator : Operator) (between : Nat) (sign : Option Sign)
    (run : NumericRun)
  /-- A group as the operand, and the spaces before its closing bracket. -/
  | group (before : Nat) (operator : Operator) (between : Nat) (items : List Item)
    (closing : Nat)

namespace Item

/-- **Induction over the items of an expression**, those in groups
included. -/
@[elab_as_elim]
theorem induction {motive : List Item → Prop} (nil : motive [])
    (literal : ∀ before o between sign run items, motive items
      → motive (.literal before o between sign run :: items))
    (group : ∀ before o between inner closing items, motive inner → motive items
      → motive (.group before o between inner closing :: items)) :
    ∀ items, motive items
  | [] => nil
  | .literal _ _ _ _ _ :: items => literal _ _ _ _ _ _ (induction nil literal group items)
  | .group _ _ _ inner _ :: items =>
    group _ _ _ _ _ _ (induction nil literal group inner) (induction nil literal group items)

/-! ## Writing -/

/-- So many spaces. -/
def spaces (n : Nat) : List Char :=
  List.replicate n ' '

/-- A sign or none. -/
def signText (sign : Option Sign) : List Char :=
  (sign.map Sign.symbol).toList

mutual

/-- **Writes an item.** -/
def write : Item → List Char
  | .literal before o between sign run =>
    spaces before ++ o.symbol :: (spaces between ++ (signText sign ++ run.chars))
  | .group before o between inner closing =>
    spaces before
      ++ o.symbol :: (spaces between ++ '(' :: (text inner ++ (spaces closing ++ [')'])))

/-- Writes items, one after the other. -/
def text : List Item → List Char
  | [] => []
  | item :: items => item.write ++ text items

end

/-! ## What is written -/

section Meaning

variable {α : Type} [Arithmetic α]

mutual

/-- **The term that an item writes**, with its operator. A literal has the
value of its run under its sign, and a group the value that its own terms
reduce to. -/
def term : Item → Term α
  | .literal _ o _ sign run =>
    { operator := some o
      value := some (Literal.value ⟨sign = some .minus, run.chars⟩) }
  | .group _ o _ inner _ =>
    { operator := some o
      value := some ((reduce (terms inner)).value.getD Arithmetic.undefined)
      node := some () }

/-- The terms of a scope that the items write: one for each, in order. -/
def terms : List Item → List (Term α)
  | [] => []
  | item :: items => item.term :: terms items

end

/-- **The value of the items**: their terms reduced, from the innermost
groups outwards. -/
def value (items : List Item) : α :=
  (reduce (terms items)).value.getD Arithmetic.undefined

mutual

/-- The group that an item writes, closed, if it writes one. -/
def ownGroups : Item → List (Tree α)
  | .literal .. => []
  | .group _ _ _ inner _ =>
    [.node { closesGroup := true, closed := true, grown := false,
             terms := (reduce (terms inner)).terms }
      (reduce (terms inner)).value (groups inner)]

/-- The groups that the items write, in order. -/
def groups : List Item → List (Tree α)
  | [] => []
  | item :: items => item.ownGroups ++ groups items

end

/-- **The tree that the items write** as the whole of a text. -/
def tree (items : List Item) : Tree α :=
  .node { closesGroup := false, terms := (reduce (terms items)).terms }
    (reduce (terms items)).value (groups items)

mutual

/-- The terms of the groups that an item writes, in the order in which the
groups end: those inside it come before its own. -/
def ownEndings : Item → List (List (Term α))
  | .literal .. => []
  | .group _ _ _ inner _ => endings inner ++ [terms inner]

/-- The terms of the groups that the items write. -/
def endings : List Item → List (List (Term α))
  | [] => []
  | item :: items => item.ownEndings ++ endings items

end

end Meaning

end Item

/-! ## Where a run ends -/

/-- **A text that a run of digits and points does not go on into.** -/
def EndsRun (s : List Char) : Prop :=
  ∀ x ∈ s.head?, isNumeric x = false

/-- A run is read up to where it ends. -/
theorem Cursor.consumeWhile_of_endsRun {c : Cursor} {run behind : List Char}
    (hnumeric : ∀ x ∈ run, isNumeric x = true) (hends : EndsRun behind)
    (h : c.rest = run ++ behind) : c.consumeWhile isNumeric = (run, c.read run.length) := by
  have hnone : behind.takeWhile isNumeric = [] := by
    cases behind with
    | nil => rfl
    | cons x s => exact List.takeWhile_cons_of_neg (by rw [hends x rfl]; exact Bool.false_ne_true)
  have hrun : c.rest.takeWhile isNumeric = run := by
    rw [h, List.takeWhile_append_of_pos hnumeric, hnone, List.append_nil]
  rw [consumeWhile, hrun]

/-- **A text is divided at the literal that it begins with**: a sign, digits and
points, and what is behind them. -/
structure Literal.Divides (s : List Char) (sign : Option Sign) (run behind : List Char) : Prop where
  eq_append : s = Item.signText sign ++ (run ++ behind)
  /-- There is no sign only if the text does not begin with one. -/
  head?_ne : sign = none → ∀ t : Sign, s.head? ≠ some t.symbol
  numeric : ∀ x ∈ run, isNumeric x = true
  /-- The run ends only where no digit and no point comes next. -/
  endsRun : EndsRun behind

theorem Sign.isNumeric_symbol (t : Sign) : isNumeric t.symbol = false := by
  cases t <;> decide

namespace Literal.Divides

variable {c : Cursor} {sign : Option Sign} {run behind : List Char}

/-- **A literal is read up to where the text is divided**, whatever the cursor is
otherwise. -/
theorem read_eq (h : Divides c.rest sign run behind) :
    read c = (⟨sign = some .minus, run⟩, (c.skip (Item.signText sign).length).read run.length) := by
  obtain ⟨happend, hhead, hnumeric, hends⟩ := h
  cases sign with
  | some t =>
    have hnext : c.nextChar? = some t.symbol := by
      rw [Cursor.nextChar?, happend]
      rfl
    have hrest : (c.skip 1).rest = run ++ behind := by
      rw [Cursor.rest_skip, happend]
      rfl
    unfold read
    rw [Cursor.peek_eq hnext, Cursor.peek_eq hnext]
    cases t with
    | plus | minus =>
      show ((⟨_, ((c.skip 1).consumeWhile isNumeric).1⟩ : Literal),
        ((c.skip 1).consumeWhile isNumeric).2) = _
      rw [Cursor.consumeWhile_of_endsRun hnumeric hends hrest]
      rfl
  | none =>
    have hpeek (t : Sign) : c.peek (· == t.symbol) = false := by
      rw [Cursor.peek, Cursor.nextChar?]
      cases hnext : c.rest.head? with
      | none => rfl
      | some x =>
        refine beq_eq_false_iff_ne.mpr fun hx => hhead rfl t ?_
        rw [hnext, hx]
    have hminus : c.peek (· == '-') = false := hpeek .minus
    have hplus : c.peek (· == '+') = false := hpeek .plus
    unfold read
    rw [hminus, hplus]
    show ((⟨_, (c.consumeWhile isNumeric).1⟩ : Literal), (c.consumeWhile isNumeric).2) = _
    rw [Cursor.consumeWhile_of_endsRun hnumeric hends happend]
    rfl

/-- Behind the literal is what is behind its run. -/
theorem rest_eq (h : Divides c.rest sign run behind) :
    ((c.skip (Item.signText sign).length).read run.length).rest = behind := by
  rw [Cursor.rest_read, Cursor.rest_skip, h.eq_append, List.drop_left, List.drop_left]

end Literal.Divides

namespace Item

theorem endsRun_spaces_append {x : Char} (hx : isNumeric x = false) (n : Nat) (s : List Char) :
    EndsRun (spaces n ++ x :: s) := by
  cases n with
  | zero => rintro y ⟨⟩; exact hx
  | succ n => rintro y ⟨⟩; rfl

theorem isNumeric_symbol (o : Operator) : isNumeric o.symbol = false := by
  cases o <;> decide

/-- An item begins with a space or an operator. -/
theorem endsRun_text_append (items : List Item) {s : List Char} (h : EndsRun s) :
    EndsRun (text items ++ s) := by
  match items with
  | [] => exact h
  | .literal .. :: _ | .group .. :: _ =>
    rw [text, write, List.append_assoc, List.append_assoc]
    exact endsRun_spaces_append (isNumeric_symbol _) _ _

/-! ## What a pass takes of an item -/

theorem dropWhile_spaces_append {x : Char} (hx : x ≠ ' ') (n : Nat) (s : List Char) :
    (spaces n ++ x :: s).dropWhile (· == ' ') = x :: s := by
  rw [List.dropWhile_append_of_pos fun y hy => beq_iff_eq.mpr (List.eq_of_mem_replicate hy)]
  exact List.dropWhile_cons_of_neg fun h => hx (beq_iff_eq.mp h)

theorem rest_skipSpaces_spaces {c : Cursor} {x : Char} {n : Nat} {s : List Char}
    (h : c.rest = spaces n ++ x :: s) (hx : x ≠ ' ') : (skipSpaces c).rest = x :: s := by
  rw [rest_skipSpaces, h, dropWhile_spaces_append hx]

theorem symbol_ne_space (o : Operator) : o.symbol ≠ ' ' := by
  cases o <;> decide

/-- **A literal is read back**: its sign, its run and nothing more. -/
theorem read_literal {c : Cursor} {sign : Option Sign} {run : NumericRun} {s : List Char}
    (h : c.rest = signText sign ++ (run.chars ++ s)) (hs : EndsRun s) :
    (Literal.read c).1 = ⟨sign = some .minus, run.chars⟩ ∧ (Literal.read c).2.rest = s := by
  have hdivides : Literal.Divides c.rest sign run.chars s := by
    refine ⟨h, fun hnone t ht => ?_, run.numeric, hs⟩
    -- Without a sign the run is next, and it does not begin like one.
    obtain ⟨y, ys, hy, hnumeric⟩ := run.exists_cons
    subst hnone
    rw [h, hy] at ht
    obtain rfl := Option.some.inj ht
    exact absurd hnumeric (t.isNumeric_symbol ▸ Bool.false_ne_true)
  rw [hdivides.read_eq]
  exact ⟨rfl, hdivides.rest_eq⟩

/-- A literal begins with neither a space nor a bracket. -/
theorem exists_cons_literal (sign : Option Sign) (run : NumericRun) (s : List Char) :
    ∃ x t, signText sign ++ (run.chars ++ s) = x :: t ∧ x ≠ ' ' ∧ x ≠ '(' := by
  cases sign with
  | some sign =>
    refine ⟨sign.symbol, run.chars ++ s, rfl, ?_⟩
    cases sign <;> decide
  | none =>
    obtain ⟨y, ys, hy, hnumeric⟩ := run.exists_cons
    refine ⟨y, ys ++ s, by rw [hy]; rfl, ?_, ?_⟩
    · rintro rfl
      exact absurd hnumeric (by decide)
    · rintro rfl
      exact absurd hnumeric (by decide)

theorem operand_literal (o : Operator) {c : Cursor} {n : Nat} {sign : Option Sign}
    {run : NumericRun} {s : List Char}
    (h : c.rest = spaces n ++ (signText sign ++ (run.chars ++ s))) (hs : EndsRun s) :
    ∃ d, Pass.operand o c = .literal o ⟨sign = some .minus, run.chars⟩ d ∧ d.rest = s := by
  obtain ⟨x, t, hxt, hspace, hopen⟩ := exists_cons_literal sign run s
  have hskip : (skipSpaces c).rest = signText sign ++ (run.chars ++ s) := by
    rw [hxt] at h ⊢
    exact rest_skipSpaces_spaces h hspace
  have hpeek : (skipSpaces c).peek (· == '(') = false := by
    rw [Cursor.peek, Cursor.nextChar?, hskip, hxt]
    exact beq_eq_false_iff_ne.mpr hopen
  obtain ⟨hliteral, hrest⟩ := read_literal hskip hs
  refine ⟨(Literal.read (skipSpaces c)).2, ?_, hrest⟩
  unfold Pass.operand
  dsimp only
  rw [hpeek, ← hliteral]
  rfl

theorem operand_group (o : Operator) {c : Cursor} {n : Nat} {s : List Char}
    (h : c.rest = spaces n ++ '(' :: s) :
    ∃ d, Pass.operand o c = .opened o d ∧ d.rest = s := by
  have hskip := rest_skipSpaces_spaces h (by decide)
  have hpeek : (skipSpaces c).peek (· == '(') = true := by
    rw [Cursor.peek, Cursor.nextChar?, hskip]
    rfl
  refine ⟨(skipSpaces c).skip 1, ?_, ?_⟩
  · unfold Pass.operand
    dsimp only
    rw [hpeek]
    rfl
  · rw [Cursor.rest_skip, hskip]
    rfl

variable {α : Type} {b : Scope α} {c : Cursor} {n : Nat} {s : List Char}

theorem pass_operator {o : Operator} (hb : b.grown = true)
    (h : c.rest = spaces n ++ o.symbol :: s) :
    ∃ d, b.pass c = Pass.operand o d ∧ d.rest = s := by
  have hskip := rest_skipSpaces_spaces h (symbol_ne_space o)
  refine ⟨(skipSpaces c).skip 1, ?_, ?_⟩
  · rw [Scope.pass_of_grown (by simp [h]) hb]
    exact Pass.take_operator _ (by rw [Cursor.nextChar?, hskip]; rfl)
  · rw [Cursor.rest_skip, hskip]
    rfl

/-- The bracket that closes a group is taken as such. -/
theorem pass_closing (hb : b.grown = true) (hgroup : b.closesGroup = true)
    (h : c.rest = spaces n ++ ')' :: s) : ∃ d, b.pass c = .closed d ∧ d.rest = s := by
  have hskip := rest_skipSpaces_spaces h (by decide)
  refine ⟨(skipSpaces c).skip 1, ?_, ?_⟩
  · rw [Scope.pass_of_grown (by simp [h]) hb,
      Pass.take_closeBracket _ (by rw [Cursor.nextChar?, hskip]; rfl), hgroup]
    rfl
  · rw [Cursor.rest_skip, hskip]
    rfl

end Item

/-! ## Reading items with any text behind them -/

namespace Frame

variable {α : Type}

/-- **A frame with further terms and groups**, ready for the next pass. -/
def extend (ts : List (Term α)) (gs : List (Tree α)) (f : Frame α) : Frame α where
  scope := { f.scope with terms := f.scope.terms ++ ts, grown := true, pending := none }
  groups := f.groups ++ gs

theorem extend_extend (ts us : List (Term α)) (gs hs : List (Tree α)) (f : Frame α) :
    (f.extend ts gs).extend us hs = f.extend (ts ++ us) (gs ++ hs) := by
  simp [extend]

/-- **A frame that waits for its next item**: none is half taken in, and the
pass before was not blank. -/
structure IsReady (f : Frame α) : Prop where
  grown : f.scope.grown = true
  pending : f.scope.pending = none

theorem isReady_extend (ts : List (Term α)) (gs : List (Tree α)) (f : Frame α) :
    (f.extend ts gs).IsReady :=
  ⟨rfl, rfl⟩

theorem IsReady.extend_nil {f : Frame α} (h : f.IsReady) : f.extend [] [] = f := by
  obtain ⟨⟨_, _, _, _, _⟩, _⟩ := f
  obtain ⟨rfl, rfl⟩ := h
  simp [extend]

theorem IsReady.push_eq {f : Frame α} (h : f.IsReady) (t : Term α) :
    f.push t = f.extend [t] [] := by
  obtain ⟨⟨_, _, _, _, _⟩, _⟩ := f
  obtain ⟨rfl, rfl⟩ := h
  simp [extend, push, Scope.push]

variable [Arithmetic α]

/-- **Written items are read back**, whatever text is behind them, as long as
it does not go on with the last run. The frame gets a term for each item and
the groups among them, in their order. -/
theorem evaluate_text (items : List Item) {f : Frame α} {c : Cursor} {s : List Char}
    (hf : f.IsReady) (h : c.rest = Item.text items ++ s) (hs : EndsRun s) :
    ∃ d, d.rest = s
      ∧ f.evaluate c = (f.extend (Item.terms items) (Item.groups items)).evaluate d
      ∧ f.endings c
        = Item.endings items ++ (f.extend (Item.terms items) (Item.groups items)).endings d := by
  -- The frame and the text behind are general, because the items of a group are
  -- read in a frame of their own and with the rest of the whole behind them.
  induction items using Item.induction generalizing f c s with
  | nil =>
    refine ⟨c, h, ?_, ?_⟩
    · rw [Item.terms, Item.groups, hf.extend_nil]
    · rw [Item.terms, Item.groups, hf.extend_nil]
      rfl
  | literal before o between sign run items ih =>
    rw [Item.text, Item.write] at h
    simp only [List.append_assoc, List.cons_append] at h
    obtain ⟨d, hpass, hd⟩ := Item.pass_operator hf.grown h
    obtain ⟨e, hoperand, he⟩ := Item.operand_literal o hd (Item.endsRun_text_append items hs)
    rw [hoperand] at hpass
    obtain ⟨d, hd, hevaluate, hendings⟩ := ih (isReady_extend _ _ f) he hs
    refine ⟨d, hd, ?_, ?_⟩
    · rw [evaluate_of_literal hpass, hf.push_eq, hevaluate, extend_extend]
      rfl
    · rw [endings_of_literal hpass, hf.push_eq, hendings, extend_extend]
      rfl
  | group before o between inner closing items ihInner ih =>
    rw [Item.text, Item.write] at h
    simp only [List.append_assoc, List.cons_append, List.nil_append] at h
    obtain ⟨d, hpass, hd⟩ := Item.pass_operator hf.grown h
    obtain ⟨e, hoperand, he⟩ := Item.operand_group o hd
    rw [hoperand] at hpass
    -- The group is read as items with its closing bracket behind them, which a
    -- run does not go on into either.
    obtain ⟨d, hd, hevaluateInner, hendingsInner⟩ :=
      ihInner (f := { scope := .group }) ⟨rfl, rfl⟩ he
        (Item.endsRun_spaces_append rfl closing _)
    obtain ⟨e', hclosed, he'⟩ := Item.pass_closing (b := (extend (Item.terms inner)
      (Item.groups inner) { scope := (.group : Scope α) }).scope) rfl rfl hd
    rw [evaluate_of_closed hclosed] at hevaluateInner
    rw [endings_of_closed hclosed] at hendingsInner
    obtain ⟨d, hd, hevaluate, hendings⟩ := ih (isReady_extend
      [Item.term (.group before o between inner closing)]
      (Item.ownGroups (.group before o between inner closing)) f) he' hs
    refine ⟨d, hd, ?_, ?_⟩
    · rw [evaluate_of_opened hpass, evaluateGroup, hevaluateInner]
      rw [extend_extend] at hevaluate
      exact hevaluate
    · rw [endings_of_opened hpass, evaluateGroup, hevaluateInner, hendingsInner]
      rw [extend_extend] at hendings
      exact (congrArg _ hendings).trans (List.append_assoc _ _ _).symm

end Frame

namespace Item

/-! ## Reading a whole text -/

/-- The items with no space before the first of them. -/
def flush : List Item → List Item
  | [] => []
  | .literal _ o between sign run :: items => .literal 0 o between sign run :: items
  | .group _ o between inner closing :: items => .group 0 o between inner closing :: items

theorem dropWhile_isBlank_text (items : List Item) :
    (text items).dropWhile Text.isBlank = text (flush items) := by
  have hspaces (n : Nat) (o : Operator) (s : List Char) :
      (spaces n ++ o.symbol :: s).dropWhile Text.isBlank = o.symbol :: s := by
    rw [List.dropWhile_append_of_pos fun x hx => by rw [List.eq_of_mem_replicate hx]; rfl]
    refine List.dropWhile_cons_of_neg ?_
    cases o <;> decide
  match items with
  | [] => rfl
  | .literal .. :: _ | .group .. :: _ =>
    rw [text, write, List.append_assoc]
    exact hspaces _ _ _

/-- Taking characters off the end of a text goes no further than its last
part, if there is none in that one to take off. -/
theorem rdropWhile_append {p : Char → Bool} {s t : List Char} (ht : t ≠ [])
    (h : t.rdropWhile p = t) : (s ++ t).rdropWhile p = s ++ t := by
  rw [List.rdropWhile_eq_self_iff] at h ⊢
  intro hst
  rw [List.getLast_append_of_ne_nil hst ht]
  exact h ht

theorem isBlank_of_isNumeric {x : Char} (h : isNumeric x = true) : Text.isBlank x = false := by
  obtain ⟨hlow, hhigh⟩ := toNat_of_isNumeric h
  simp only [Text.isBlank, Bool.or_eq_false_iff, Bool.and_eq_false_iff, decide_eq_false_iff_not,
    beq_eq_false_iff_ne]
  omega

/-- Written items end with a numeric character or with a bracket. -/
theorem rdropWhile_isBlank_text (items : List Item) :
    (text items).rdropWhile Text.isBlank = text items := by
  have happend {s t : List Char} (hs : s ≠ []) (h : s.rdropWhile Text.isBlank = s)
      (ht : t.rdropWhile Text.isBlank = t) : (s ++ t).rdropWhile Text.isBlank = s ++ t := by
    by_cases hnil : t = []
    · rw [hnil, List.append_nil, h]
    · exact rdropWhile_append hnil ht
  induction items using Item.induction with
  | nil => rfl
  | literal before o between sign run items ih =>
    have hrun : run.chars.rdropWhile Text.isBlank = run.chars := by
      rw [List.rdropWhile_eq_self_iff]
      intro hne
      rw [isBlank_of_isNumeric (run.numeric _ (List.getLast_mem hne))]
      exact Bool.false_ne_true
    refine happend (by simp [write]) ?_ ih
    rw [write, ← List.cons_append, ← List.append_assoc, ← List.append_assoc]
    exact rdropWhile_append run.ne_nil hrun
  | group before o between inner closing items _ ih =>
    refine happend (by simp [write]) ?_ ih
    have hwrite : write (.group before o between inner closing)
        = (spaces before ++ o.symbol :: (spaces between ++ '(' :: (text inner ++ spaces closing)))
          ++ [')'] := by
      simp [write]
    rw [hwrite]
    exact List.rdropWhile_concat_neg _ _ _ (by decide)

theorem strip_text (items : List Item) : Text.strip (text items) = text (flush items) := by
  show ((text items).dropWhile Text.isBlank).rdropWhile Text.isBlank = _
  rw [dropWhile_isBlank_text, rdropWhile_isBlank_text]

theorem terms_flush {α : Type} [Arithmetic α] (items : List Item) :
    (terms (flush items) : List (Term α)) = terms items := by
  match items with
  | [] | .literal .. :: _ | .group .. :: _ => rfl

theorem groups_flush {α : Type} [Arithmetic α] (items : List Item) :
    (groups (flush items) : List (Tree α)) = groups items := by
  match items with
  | [] | .literal .. :: _ | .group .. :: _ => rfl

theorem endings_flush {α : Type} [Arithmetic α] (items : List Item) :
    (endings (flush items) : List (List (Term α))) = endings items := by
  match items with
  | [] | .literal .. :: _ | .group .. :: _ => rfl

/-- The groups that items write are all closed. -/
theorem areBalanced_groups {α : Type} [Arithmetic α] (items : List Item) :
    Tree.areBalanced (groups items : List (Tree α)) = true := by
  induction items using Item.induction with
  | nil => rfl
  | literal _ _ _ _ _ _ ih => exact ih
  | group _ _ _ inner _ items ihInner ih =>
    show (((!true || true) && Tree.areBalanced (groups inner : List (Tree α)))
      && Tree.areBalanced (groups items)) = true
    rw [ihInner, ih]
    rfl

/-- **The evaluation of written items** gives the tree that they write and
ends where the text does, and its scopes end with the terms that they
write. -/
theorem evaluate_strip_text {α : Type} [Arithmetic α] (items : List Item) :
    let f : Frame α := { scope := .outermost }
    let c := Cursor.ofList (Text.strip (text items))
    (∃ d, d.rest = [] ∧ f.evaluate c = (tree items, d))
      ∧ f.endings c = endings items ++ [terms items] := by
  intro f c
  have hc : c.rest = text (flush items) ++ [] := by
    rw [List.append_nil, ← strip_text]
    rfl
  obtain ⟨d, hd, hevaluate, hendings⟩ :=
    Frame.evaluate_text (flush items) (f := f) ⟨rfl, rfl⟩ hc (by simp [EndsRun])
  rw [terms_flush, groups_flush] at hevaluate hendings
  have hended : (f.extend (terms items) (groups items)).scope.pass d = .ended :=
    Scope.pass_of_nil hd
  rw [Frame.evaluate_of_ended hended] at hevaluate
  rw [Frame.endings_of_ended hended, endings_flush] at hendings
  exact ⟨⟨d, hd, hevaluate⟩, hendings⟩

end Item

/-- **Reading undoes writing.** The text of any items, nested to any depth and
with any spaces, is evaluated to its end with every group closed. Each scope
ends with one term for each of its items, in their order, with the item's
operator and with the value of the literal or of the group; the tree is the
one that the items write; and the value is that of the items, reduced from
the innermost groups outwards. -/
theorem evaluate_text_eq_value (items : List Item) :
    let text := Item.text items
    let result : Tree Float × Cursor := evaluateChars text
    result.2.hasMore = false
      ∧ result.1.isBalanced = true
      ∧ (evaluationNotes (String.ofList text)).filterMap Note.scanned?
        = Item.endings items ++ [Item.terms items]
      ∧ result.1 = Item.tree items
      ∧ evaluate (String.ofList text) = Item.value items := by
  intro text result
  obtain ⟨⟨d, hd, hevaluate⟩, hendings⟩ := Item.evaluate_strip_text (α := Float) items
  have hresult : result = (Item.tree items, d) := (Scope.evaluate_eq _ _).trans hevaluate
  refine ⟨?_, ?_, ?_, ?_, ?_⟩
  · rw [hresult, Cursor.hasMore, hd]
    rfl
  · rw [hresult, Tree.isBalanced_eq]
    exact Item.areBalanced_groups items
  · unfold evaluationNotes
    rw [String.toList_ofList, Scope.filterMap_scanned?_notes]
    exact hendings
  · rw [hresult]
  · unfold evaluate
    rw [String.toList_ofList]
    show result.1.number = _
    rw [hresult]
    rfl

end Reckon
