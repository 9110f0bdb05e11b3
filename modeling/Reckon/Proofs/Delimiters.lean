import Mathlib.Order.Bounds.Basic
import Reckon.Proofs.Positions

/-!
# Scans up to a delimiter

A scan up to a delimiter parts what is ahead of a cursor in two, at the first
place where the delimiter is, and the delimiter itself goes to neither part. It
may be one of several characters or a literal, and the two are looked for in
different ways: characters one by one, a literal by its occurrence. What they
make of the text is said in one way, `PartsAt`, which knows nothing of either
search.

A literal can occur at places that overlap, so that the one found has to be
shown to be the least (`occurrence?_eq_some_iff`). A literal that is not found
is no part of what is ahead (`occurrence?_eq_none_iff`), and this is why a text
that is too short for a literal need not be searched for it.

A scan remembers the last character that it passes. There is one exception: a
literal that is skipped to and not found. The cursor is at the end of the text
then, and remembers what it did before (`GoesUnread`).
-/

namespace Reckon

namespace Cursor

/-! ## Where a delimiter is -/

/-- One of the stop characters is at this place. -/
def IsStopAt (stops : List String) (s : List Char) (i : Nat) : Prop :=
  ∃ x ∈ s[i]?, String.singleton x ∈ stops

/-- The text goes on with the literal at this place. -/
def IsLiteralAt (literal : String) (s : List Char) (i : Nat) : Prop :=
  literal.toList <+: s.drop i

theorem exists_isLiteralAt_iff {literal : String} {s : List Char} :
    (∃ i, IsLiteralAt literal s i) ↔ literal.toList <:+: s := by
  rw [List.infix_iff_prefix_suffix]
  constructor
  · rintro ⟨i, h⟩
    exact ⟨s.drop i, h, List.drop_suffix i s⟩
  · rintro ⟨t, hprefix, hsuffix⟩
    refine ⟨s.length - t.length, ?_⟩
    rwa [IsLiteralAt, ← List.suffix_iff_eq_drop.mp hsuffix]

/-- A literal is found where it is, or before. -/
theorem exists_occurrence?_le {literal s : List Char} {i : Nat} (h : literal <+: s.drop i) :
    ∃ j ≤ i, occurrence? literal s = some j := by
  induction s generalizing i with
  | nil =>
    rw [List.drop_nil, List.prefix_nil] at h
    exact ⟨0, Nat.zero_le i, by rw [h]; rfl⟩
  | cons x s ih =>
    rw [occurrence?]
    by_cases hfront : literal.isPrefixOf (x :: s) = true
    · exact ⟨0, Nat.zero_le i, if_pos hfront⟩
    · rw [if_neg hfront]
      cases i with
      | zero => exact absurd (List.isPrefixOf_iff_prefix.mpr h) hfront
      | succ i =>
        obtain ⟨j, hj, hsome⟩ := ih h
        exact ⟨j + 1, Nat.succ_le_succ hj, by rw [hsome]; rfl⟩

/-- **The occurrence of a literal is the least place** where it is. -/
theorem occurrence?_eq_some_iff {literal s : List Char} {i : Nat} :
    occurrence? literal s = some i ↔ IsLeast {i | literal <+: s.drop i} i := by
  constructor
  · intro h
    refine ⟨isPrefix_drop_of_occurrence? h, fun j hj => ?_⟩
    obtain ⟨k, hk, hsome⟩ := exists_occurrence?_le hj
    obtain rfl := Option.some.inj (h.symm.trans hsome)
    exact hk
  · rintro ⟨hi, hleast⟩
    obtain ⟨j, hj, hsome⟩ := exists_occurrence?_le hi
    rwa [Nat.le_antisymm (hleast (isPrefix_drop_of_occurrence? hsome)) hj]

theorem occurrence?_eq_none_iff {literal : String} {s : List Char} :
    occurrence? literal.toList s = none ↔ ∀ i, ¬ IsLiteralAt literal s i := by
  constructor
  · intro h i hi
    obtain ⟨j, _, hsome⟩ := exists_occurrence?_le hi
    exact Option.some_ne_none j (hsome.symm.trans h)
  · intro h
    refine Option.eq_none_iff_forall_ne_some.mpr fun i hi => ?_
    exact h i (isPrefix_drop_of_occurrence? hi)

/-! ## Parting a text -/

/-- **A text is parted at a delimiter** that is as wide as this: at the first of
the places where it is, what is before it and what is behind it. Without such a
place the whole text is before it. -/
inductive PartsAt (found : Nat → Prop) (width : Nat) (s : List Char) :
    List Char → List Char → Prop where
  | first {i : Nat} : IsLeast {i | found i} i →
      PartsAt found width s (s.take i) (s.drop (i + width))
  | nowhere : (∀ i, ¬ found i) → PartsAt found width s s []

/-- A character where the delimiter is not goes before it. -/
theorem PartsAt.cons {found : Nat → Prop} {width : Nat} {x : Char} {s before behind : List Char}
    (hx : ¬ found 0) (h : PartsAt (fun i => found (i + 1)) width s before behind) :
    PartsAt found width (x :: s) (x :: before) behind := by
  cases h with
  | @first i hi =>
    have hdrop : (x :: s).drop (i + 1 + width) = s.drop (i + width) := by
      rw [Nat.add_right_comm, List.drop_succ_cons]
    rw [← hdrop]
    refine .first (i := i + 1) ⟨hi.1, fun j hj => ?_⟩
    cases j with
    | zero => exact absurd hj hx
    | succ j => exact Nat.succ_le_succ (hi.2 hj)
  | nowhere hnone =>
    refine .nowhere fun i => ?_
    cases i with
    | zero => exact hx
    | succ i => exact hnone i

/-- **The run before the first stop** and what is behind the stop. -/
theorem partsAt_takeWhile (stops : List String) (s : List Char) :
    let run := s.takeWhile fun x => !admits stops x
    PartsAt (IsStopAt stops s) 1 s run (s.drop (run.length + 1)) := by
  induction s with
  | nil => exact .nowhere fun i ⟨x, hx, _⟩ => by simp at hx
  | cons x s ih =>
    intro run
    cases hx : admits stops x with
    | true =>
      have hrun : run = [] := List.takeWhile_cons_of_neg (by rw [hx]; decide)
      rw [hrun]
      refine .first (i := 0) ⟨⟨x, rfl, ?_⟩, fun j _ => Nat.zero_le j⟩
      exact List.contains_iff_mem.mp hx
    | false =>
      have hrun : run = x :: s.takeWhile fun x => !admits stops x :=
        List.takeWhile_cons_of_pos (by rw [hx]; rfl)
      rw [hrun]
      refine .cons ?_ ih
      rintro ⟨y, hy, hstop⟩
      obtain rfl := Option.some.inj hy
      exact Bool.false_ne_true (hx.symm.trans (List.contains_iff_mem.mpr hstop))

variable (c : Cursor)

theorem partsAt_readUntil (stops : List String) :
    PartsAt (IsStopAt stops c.rest) 1 c.rest (c.readUntil (admits stops)).1
      (c.readUntil (admits stops)).2.rest :=
  partsAt_takeWhile stops c.rest

theorem partsAt_readUntilLiteral {literal : String} (h : literal ≠ "") :
    PartsAt (IsLiteralAt literal c.rest) literal.length c.rest
      (c.readUntilLiteral literal.toList).1 (c.readUntilLiteral literal.toList).2.rest := by
  have hempty : ¬ literal.toList.isEmpty = true := fun hnil =>
    h (String.toList_eq_nil_iff.mp (List.isEmpty_iff.mp hnil))
  rw [readUntilLiteral, if_neg hempty, ← String.length_toList]
  cases hoccurs : occurrence? literal.toList c.rest with
  | some i => exact .first (occurrence?_eq_some_iff.mp hoccurs)
  | none =>
    show PartsAt _ _ c.rest c.rest (c.rest.drop c.rest.length)
    rw [List.drop_length]
    exact .nowhere (occurrence?_eq_none_iff.mp hoccurs)

/-! ## Skipping to a delimiter -/

theorem exists_isStopAt_iff {stops : List String} {s : List Char} :
    (∃ i, IsStopAt stops s i) ↔ s.any (admits stops) = true := by
  rw [List.any_eq_true]
  constructor
  · rintro ⟨i, x, hx, hstop⟩
    exact ⟨x, List.mem_of_getElem? hx, List.contains_iff_mem.mpr hstop⟩
  · rintro ⟨x, hx, hstop⟩
    obtain ⟨i, hi⟩ := List.getElem?_of_mem hx
    exact ⟨i, x, hi, List.contains_iff_mem.mp hstop⟩

/-- A literal that is skipped to is found if it is anywhere ahead. -/
theorem skipUntilLiteral_eq_true_iff (literal : String) :
    (c.skipUntilLiteral literal.toList).1 = true ↔ ∃ i, IsLiteralAt literal c.rest i := by
  rw [skipUntilLiteral]
  by_cases hshort : c.text.length < literal.toList.length
  · rw [if_pos hshort]
    refine iff_of_false Bool.false_ne_true fun h => ?_
    -- What is ahead is part of the text, and too short as well.
    have hle := (exists_isLiteralAt_iff.mp h).length_le
    rw [length_text] at hshort
    omega
  · rw [if_neg hshort]
    cases h : occurrence? literal.toList c.rest with
    | some i => exact iff_of_true rfl ⟨i, isPrefix_drop_of_occurrence? h⟩
    | none => exact iff_of_false Bool.false_ne_true (not_exists.mpr (occurrence?_eq_none_iff.mp h))

/-- **Skipping to a literal moves as reading up to it does**, unless the literal is
longer than the text. -/
theorem position_skipUntilLiteral (literal : List Char) :
    (c.skipUntilLiteral literal).2.position
      = if c.text.length < literal.length then c.position
        else (c.readUntilLiteral literal).2.position := by
  rw [skipUntilLiteral, readUntilLiteral]
  split
  · rfl
  · cases hempty : literal.isEmpty with
    | true =>
      rw [List.isEmpty_iff.mp hempty, occurrence?_nil]
      exact c.position_read 0
    | false =>
      cases occurrence? literal c.rest with
      | some i => rfl
      | none => rfl

/-! ## A literal of one character -/

/-- A text is parted in one way. -/
theorem PartsAt.unique {found : Nat → Prop} {width : Nat} {s before before' behind behind' : List Char}
    (h : PartsAt found width s before behind) (h' : PartsAt found width s before' behind') :
    before' = before ∧ behind' = behind := by
  cases h with
  | first hi =>
    cases h' with
    | first hj =>
      obtain rfl := hi.unique hj
      exact ⟨rfl, rfl⟩
    | nowhere hnone => exact absurd hi.1 (hnone _)
  | nowhere hnone =>
    cases h' with
    | first hj => exact absurd hj.1 (hnone _)
    | nowhere _ => exact ⟨rfl, rfl⟩

theorem isStopAt_singleton_iff {x : Char} {s : List Char} {i : Nat} :
    IsStopAt [String.singleton x] s i ↔ IsLiteralAt (String.singleton x) s i := by
  rw [IsLiteralAt, String.toList_singleton, List.cons_prefix_iff]
  constructor
  · rintro ⟨y, hy, hstop⟩
    obtain rfl := String.singleton_inj.mp (List.mem_singleton.mp hstop)
    obtain ⟨t, ht⟩ := List.head?_eq_some_iff.mp (List.head?_drop.trans hy)
    exact ⟨t, ht, List.nil_prefix⟩
  · rintro ⟨t, ht, -⟩
    refine ⟨x, ?_, List.mem_singleton_self _⟩
    rw [← List.head?_drop, ht]
    rfl

/-- Reading on at the end of the text changes nothing. -/
theorem read_of_length_le {n : Nat} (h : c.rest.length ≤ n) : c.read n = c.read c.rest.length := by
  rw [read, read, skip, skip, List.take_of_length_le h, List.drop_of_length_le h, List.take_length,
    List.drop_length]

/-- **A character and the literal of it** are read up to in the same way. -/
theorem readUntil_singleton (x : Char) :
    c.readUntil (admits [String.singleton x])
      = c.readUntilLiteral (String.singleton x).toList := by
  have hne : String.singleton x ≠ "" := by simp
  have hfound : IsStopAt [String.singleton x] c.rest = IsLiteralAt (String.singleton x) c.rest :=
    funext fun i => propext isStopAt_singleton_iff
  have hread := c.partsAt_readUntil [String.singleton x]
  rw [hfound] at hread
  have hliteral := c.partsAt_readUntilLiteral hne
  rw [String.length_singleton] at hliteral
  obtain ⟨hrun, -⟩ := hliteral.unique hread
  refine Prod.ext hrun ?_
  show c.read ((c.readUntil _).1.length + 1) = _
  rw [hrun, readUntilLiteral, String.toList_singleton]
  cases h : occurrence? [x] c.rest with
  | none => exact c.read_of_length_le (Nat.le_succ _)
  | some i =>
    have hle := add_length_le_of_occurrence? h
    show c.read ((c.rest.take i).length + 1) = c.read (i + 1)
    rw [List.length_take, Nat.min_eq_left (Nat.le_of_add_right_le hle)]

/-- **Scans up to a delimiter part what is ahead at its first place**, and lose
nothing of it. Reading answers with what is before the delimiter and leaves what
is behind it, also where the delimiter is one character and the literal of it.
Skipping goes where reading does and tells whether the delimiter was there, but
it stays where it is if the literal is longer than the whole text. -/
theorem perform_delimited (stops : List String) (literal : String) :
    (∃ run, (c.perform (.readUntil stops)).1 = .text (String.ofList run)
        ∧ PartsAt (IsStopAt stops c.rest) 1 c.rest run (c.perform (.readUntil stops)).2.rest)
      ∧ (literal ≠ "" →
        ∃ run, (c.perform (.readUntilLiteral literal)).1 = .text (String.ofList run)
          ∧ PartsAt (IsLiteralAt literal c.rest) literal.length c.rest run
            (c.perform (.readUntilLiteral literal)).2.rest)
      ∧ (∃ found, (c.perform (.skipUntil stops)).1 = .flag found
        ∧ (found = true ↔ ∃ i, IsStopAt stops c.rest i)
        ∧ (c.perform (.skipUntil stops)).2.position = (c.perform (.readUntil stops)).2.position)
      ∧ (∃ found, (c.perform (.skipUntilLiteral literal)).1 = .flag found
        ∧ (found = true ↔ ∃ i, IsLiteralAt literal c.rest i)
        ∧ (c.perform (.skipUntilLiteral literal)).2.position
          = if c.text.length < literal.length then c.position
            else (c.perform (.readUntilLiteral literal)).2.position)
      ∧ ∀ x, c.perform (.readUntil [String.singleton x])
        = c.perform (.readUntilLiteral (String.singleton x)) := by
  refine ⟨⟨_, rfl, c.partsAt_readUntil stops⟩, fun h => ⟨_, rfl, c.partsAt_readUntilLiteral h⟩,
    ⟨_, rfl, exists_isStopAt_iff.symm, rfl⟩,
    ⟨_, rfl, c.skipUntilLiteral_eq_true_iff literal, ?_⟩, fun x => ?_⟩
  · rw [← String.length_toList]
    exact c.position_skipUntilLiteral literal.toList
  · rw [perform, perform, readUntil_singleton]

/-- In `a-->b` the literal is not the first dash, and nothing of the text is lost. -/
theorem perform_delimited_arrow :
    let c : Cursor := .ofList "a-->b".toList
    "->" ≠ "" ∧ (c.perform (.readUntilLiteral "->")).1 = .text "a-"
      ∧ ∃ run, (c.perform (.readUntilLiteral "->")).1 = .text (String.ofList run)
        ∧ PartsAt (IsLiteralAt "->" c.rest) 2 c.rest run ['b'] := by
  intro c
  have hne : "->" ≠ "" := by decide
  exact ⟨hne, by decide, (c.perform_delimited [] "->").2.1 hne⟩

/-! ## The last character -/

/-- **The last character passed is told** by the cursor `d` behind the cursor `c`:
it is the one before its place, and if nothing was passed the one told before. -/
def TellsLast (d : Cursor) : Prop :=
  if d.position = c.position then d.lastChar = c.lastChar
  else ∃ i x, d.position = i + 1 ∧ d.text[i]? = some x ∧ d.lastChar = some x

/-- **Does the operation go to the end of the text unread?** It is a skip to a
literal, which the text is long enough for and which is nowhere ahead. -/
def GoesUnread : Operation → Prop
  | .skipUntilLiteral literal =>
    c.rest ≠ [] ∧ literal.length ≤ c.text.length ∧ ¬ literal.toList <:+: c.rest
  | _ => False

variable {c} in
theorem GoesUnread.rest_ne_nil {op : Operation} (h : c.GoesUnread op) : c.rest ≠ [] := by
  cases op with
  | skipUntilLiteral literal => exact h.1
  | _ => exact h.elim

/-- Reading tells the last character. -/
theorem tellsLast_read (n : Nat) : c.TellsLast (c.read n) := by
  have hposition := c.position_read n
  unfold TellsLast
  cases hpassed : min n c.rest.length with
  | zero =>
    rw [hpassed, Nat.add_zero] at hposition
    have htake : c.rest.take n = [] := by
      rw [← List.length_eq_zero_iff, List.length_take, hpassed]
    rw [if_pos hposition]
    show (c.rest.take n).getLast?.or c.lastChar = _
    rw [htake]
    rfl
  | succ i =>
    rw [hpassed] at hposition
    have hi : i < c.rest.length := by omega
    have hlast : (c.rest.take n).getLast? = some c.rest[i] := by
      rw [List.getLast?_eq_getElem?, List.length_take, hpassed, Nat.add_sub_cancel,
        List.getElem?_take_of_lt (by omega), List.getElem?_eq_getElem hi]
    rw [if_neg (by omega)]
    refine ⟨c.position + i, c.rest[i], hposition, ?_, ?_⟩
    · rw [text_read, text_getElem?_position_add, List.getElem?_eq_getElem hi]
    · show (c.rest.take n).getLast?.or c.lastChar = _
      rw [hlast]
      rfl

theorem perform_of_goesUnread {op : Operation} (h : c.GoesUnread op) :
    (c.perform op).2 = c.skip c.rest.length := by
  cases op with
  | skipUntilLiteral literal =>
    obtain ⟨-, hlength, habsent⟩ := h
    rw [← String.length_toList] at hlength
    have hnone : occurrence? literal.toList c.rest = none :=
      occurrence?_eq_none_iff.mpr (not_exists.mp (exists_isLiteralAt_iff.not.mpr habsent))
    show (c.skipUntilLiteral literal.toList).2 = _
    rw [skipUntilLiteral, if_neg (Nat.not_lt.mpr hlength), hnone]
  | _ => exact h.elim

/-- Every other scan reads what it passes. -/
theorem exists_read_of_not_goesUnread {op : Operation} (hscan : op.isScan = true)
    (h : ¬ c.GoesUnread op) : ∃ n, (c.perform op).2 = c.read n := by
  cases op with
  | consumeWhile _ | readUntil _ | skipUntil _ => exact ⟨_, rfl⟩
  | readUntilLiteral literal =>
    simp only [perform, readUntilLiteral]
    split
    · exact ⟨0, rfl⟩
    · split
      · exact ⟨_, rfl⟩
      · exact ⟨_, rfl⟩
  | skipUntilLiteral literal =>
    simp only [perform, skipUntilLiteral]
    split
    · exact ⟨0, rfl⟩
    · rename_i hlength
      split
      · exact ⟨_, rfl⟩
      · -- Nothing was ahead, or the literal would have been missed.
        rename_i hnone
        have hrest : c.rest = [] := by
          by_contra hrest
          refine h ⟨hrest, ?_, fun hinfix => ?_⟩
          · rw [← String.length_toList]
            exact Nat.le_of_not_lt hlength
          · obtain ⟨i, hi⟩ := exists_isLiteralAt_iff.mpr hinfix
            exact occurrence?_eq_none_iff.mp hnone i hi
        obtain ⟨before, rest, lastChar⟩ := c
        obtain rfl : rest = [] := hrest
        exact ⟨0, rfl⟩
  | hasMore | nextChar | remaining | text | lastChar | position | describe => cases hscan
  | peek _ | peekLiteral _ | advance _ | retreat _ | setPosition _ => cases hscan

/-- **A scan tells the last character that it passes**, unless it goes to the end
unread. The cursor tells then what it did before, and this is the last character
only if it happens to be. -/
theorem tellsLast_perform_iff {op : Operation} (h : op.isScan = true) :
    (c.TellsLast (c.perform op).2 ↔ (c.GoesUnread op → c.lastChar = c.text.getLast?))
      ∧ (c.GoesUnread op → (c.perform op).2.position = c.text.length
        ∧ (c.perform op).2.lastChar = c.lastChar) := by
  by_cases hunread : c.GoesUnread op
  · have hend : (c.skip c.rest.length).position = c.text.length := by
      rw [position_skip, Nat.min_self, length_text]
    have hlength := c.length_text
    have hpos := List.length_pos_iff.mpr hunread.rest_ne_nil
    have hmoved : c.text.length ≠ c.position := by omega
    rw [c.perform_of_goesUnread hunread]
    refine ⟨?_, fun _ => ⟨hend, rfl⟩⟩
    rw [TellsLast, hend, if_neg hmoved, text_skip]
    constructor
    · rintro ⟨i, x, hi, hx, hlast⟩ _
      rw [List.getLast?_eq_getElem?, hi, Nat.add_sub_cancel, hx]
      exact hlast
    · intro htold
      obtain ⟨i, hi⟩ := Nat.exists_eq_add_one_of_ne_zero (n := c.text.length) (by omega)
      have hlast := htold hunread
      rw [List.getLast?_eq_getElem?, hi, Nat.add_sub_cancel,
        List.getElem?_eq_getElem (by omega)] at hlast
      exact ⟨i, c.text[i], hi, List.getElem?_eq_getElem (by omega), hlast⟩
  · obtain ⟨n, hn⟩ := c.exists_read_of_not_goesUnread h hunread
    rw [hn]
    exact ⟨iff_of_true (c.tellsLast_read n) fun h => absurd h hunread, fun h => absurd h hunread⟩

/-- Digits that are read, and a literal that is missed where its last character
had been read before. -/
theorem tellsLast_perform_number :
    let c : Cursor := .ofList "12.5+3".toList
    let d : Cursor := ⟨['a'], ['b', 'a'], some 'a'⟩
    (Operation.consumeWhile ["1", "2", "5", "."]).isScan = true
      ∧ c.TellsLast (c.perform (.consumeWhile ["1", "2", "5", "."])).2
      ∧ (Operation.skipUntilLiteral "x").isScan = true ∧ d.GoesUnread (.skipUntilLiteral "x")
      ∧ d.lastChar = d.text.getLast? ∧ d.TellsLast (d.perform (.skipUntilLiteral "x")).2 := by
  intro c d
  have hunread : d.GoesUnread (.skipUntilLiteral "x") :=
    ⟨by decide, by decide, by decide⟩
  exact ⟨rfl, (c.tellsLast_perform_iff rfl).1.mpr False.elim, rfl, hunread, rfl,
    (d.tellsLast_perform_iff rfl).1.mpr fun _ => rfl⟩

/-- **A literal that is missed is passed over unread.** The cursor goes to the end
of the text as the reading of the literal does, and tells nothing of it. -/
theorem not_tellsLast_perform :
    (¬ ∀ (c : Cursor) (op : Operation), op.isScan = true → c.TellsLast (c.perform op).2)
      ∧ let c : Cursor := .ofList "abc".toList
        (c.perform (.skipUntilLiteral "x")).2 = ⟨['c', 'b', 'a'], [], none⟩
        ∧ (c.perform (.readUntilLiteral "x")).2 = ⟨['c', 'b', 'a'], [], some 'c'⟩ := by
  refine ⟨fun h => ?_, by decide, by decide⟩
  obtain ⟨i, x, -, -, hx⟩ := h (.ofList ['a', 'b', 'c']) (.skipUntilLiteral "x") rfl
  exact Option.some_ne_none x hx.symm

end Cursor

end Reckon
