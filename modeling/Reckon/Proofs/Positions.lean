import Reckon.Cursor.Operation
import Reckon.Proofs.States

/-!
# Cursors by position

A cursor keeps its text in two parts, so it cannot be anywhere but in its text.
A place can also be kept as a number beside the whole text, and then it can: a
`Pointer` may have any number for its position, characters are looked up by
number, and looking one up where there is none is an error (`Stray`). Some
operations on a pointer set the position through a bound (`Pointer.setPosition`),
and the others assign whatever they have worked out.

Each operation on the pointer of a cursor answers what the operation on the
cursor does, and leads to the pointer of the cursor that it leads to
(`Cursor.perform_pointer`). So no operation strays, after any others; the bounds
of the position, which the pointer does not have in its type, are those of the
cursor.
-/

namespace Reckon

/-- **Why a character cannot be looked up.** -/
inductive Stray where
  /-- There is none at the position. -/
  | noCharacter (position : Int)
  /-- The text has no last one. -/
  | noLastCharacter
deriving Repr, DecidableEq

/-- **A place in a text, by its number.** -/
structure Pointer where
  text : List Char
  position : Int
  /-- The last character that a reading passed, if there was any. -/
  lastChar : Option Char
deriving Repr, DecidableEq

namespace Pointer

open Cursor (Operation Reply)

/-! ## Looking up characters -/

/-- The character at a position. -/
def charAt (text : List Char) (i : Int) : Except Stray Char :=
  if i < 0 then .error (.noCharacter i)
  else
    match text[i.toNat]? with
    | some x => .ok x
    | none => .error (.noCharacter i)

/-- The last character of a text. -/
def charAtEnd (text : List Char) : Except Stray Char :=
  match text.getLast? with
  | some x => .ok x
  | none => .error .noLastCharacter

/-- The characters from one position to another. -/
def slice (text : List Char) (first last : Int) : List Char :=
  (text.take last.toNat).drop first.toNat

/-- Where the literal first occurs from a position on. -/
def find? (literal text : List Char) (first : Int) : Option Int :=
  if text.length < first then none
  else (Cursor.occurrence? literal (text.drop first.toNat)).map fun i : Nat => first + i

/-! ## Operations -/

/-- The start of a text. -/
def start (text : List Char) : Pointer where
  text := text
  position := 0
  lastChar := none

/-- Is there a character at the position? -/
def hasMore (p : Pointer) : Bool :=
  p.position < p.text.length

/-- The character at the position, if there is one. -/
def nextChar? (p : Pointer) : Except Stray (Option Char) :=
  if p.hasMore then return some (← charAt p.text p.position) else return none

/-- **Goes to a position**, or to the end of the text that is nearest to it. -/
def setPosition (n : Int) (p : Pointer) : Pointer :=
  { p with position := max 0 (min n p.text.length) }

/-- Goes `n` characters forward. -/
def advance (n : Int) (p : Pointer) : Pointer :=
  p.setPosition (p.position + n)

/-- Goes `n` characters back. -/
def retreat (n : Int) (p : Pointer) : Pointer :=
  p.setPosition (p.position - n)

/-- Is the next character one of those that `admits` accepts? -/
def peek (admits : Char → Bool) (p : Pointer) : Except Stray Bool :=
  if p.hasMore then return admits (← charAt p.text p.position) else return false

/-- Goes along a literal for as long as it is spelled. -/
def follow : List Char → Pointer → Except Stray (Bool × Pointer)
  | [], p => return (true, p)
  | x :: literal, p => do
    if ← p.peek (· == x) then follow literal (p.advance 1) else return (false, p)

/-- **Do the next characters spell the literal?** The pointer goes along it, and
is put back. -/
def peekLiteral (literal : List Char) (p : Pointer) : Except Stray (Bool × Pointer) := do
  let (spelled, q) ← follow literal p
  return (spelled, { q with position := p.position })

/-- Where the run of characters that `admits` accepts ends. -/
def runEnd (admits : Char → Bool) (text : List Char) (i : Int) : Except Stray Int :=
  if i < text.length then do
    if admits (← charAt text i) then runEnd admits text (i + 1) else return i
  else return i
termination_by (text.length - i).toNat

/-- What is remembered once the characters up to a position have been read. -/
def lastCharUpTo (last : Int) (p : Pointer) : Except Stray (Option Char) :=
  if p.position < last then some <$> charAt p.text (last - 1) else return p.lastChar

/-- What is remembered of a text that was passed, if any was. -/
def lastCharOf (passed : Bool) (text : List Char) (p : Pointer) : Except Stray (Option Char) :=
  if passed then some <$> charAtEnd text else return p.lastChar

/-- Reads the longest run of characters that `admits` accepts. -/
def consumeWhile (admits : Char → Bool) (p : Pointer) : Except Stray (List Char × Pointer) := do
  let last ← runEnd admits p.text p.position
  let lastChar ← p.lastCharUpTo last
  return (slice p.text p.position last, { p with position := last, lastChar := lastChar })

/-- Reads characters one by one, the first stop among them: those before it, and
whether there was one. -/
def readThrough (stop : Char → Bool) (p : Pointer) :
    Except Stray (List Char × Bool × Pointer) :=
  if p.position < p.text.length then do
    let x ← charAt p.text p.position
    let q := { p with position := p.position + 1, lastChar := some x }
    if stop x then return ([], true, q)
    else
      let (run, found, q) ← readThrough stop q
      return (x :: run, found, q)
  else return ([], false, p)
termination_by (p.text.length - p.position).toNat

/-- **Reads up to the first occurrence of the literal.** -/
def readUntilLiteral (literal : List Char) (p : Pointer) :
    Except Stray (List Char × Pointer) := do
  if literal.isEmpty then return ([], p)
  else
    match find? literal p.text p.position with
    | some i =>
      let lastChar ← p.lastCharOf true literal
      return (slice p.text p.position i,
        { p with position := i + literal.length, lastChar := lastChar })
    | none =>
      let q := p.setPosition p.text.length
      let lastChar ← p.lastCharOf (p.position < q.position) p.text
      return (p.text.drop p.position.toNat, { q with lastChar := lastChar })

/-- **Passes the first occurrence of the literal.** Was there one? -/
def skipUntilLiteral (literal : List Char) (p : Pointer) : Except Stray (Bool × Pointer) := do
  if p.text.length < literal.length then return (false, p)
  else
    match find? literal p.text p.position with
    | some i =>
      let lastChar ← p.lastCharOf (!literal.isEmpty) literal
      return (true, { p with position := i + literal.length, lastChar := lastChar })
    | none => return (false, p.setPosition p.text.length)

/-- A pointer by its place. -/
def describe (p : Pointer) : String :=
  "Cursor(position=" ++ toString p.position ++ ", remaining=" ++
    Text.quote (String.ofList (p.text.drop p.position.toNat)) ++ ")"

/-- **Performs an operation.** -/
def perform (p : Pointer) : Operation → Except Stray (Reply × Pointer)
  | .hasMore => return (.flag p.hasMore, p)
  | .nextChar => return (.character (← p.nextChar?), p)
  | .remaining => return (.text (String.ofList (p.text.drop p.position.toNat)), p)
  | .text => return (.text (String.ofList p.text), p)
  | .lastChar => return (.text (p.lastChar.elim "" String.singleton), p)
  | .position => return (.number p.position.toNat, p)
  | .describe => return (.text p.describe, p)
  | .peek candidates => return (.flag (← p.peek (admits candidates)), p)
  | .peekLiteral literal => do
    let (spelled, q) ← p.peekLiteral literal.toList
    return (.flag spelled, q)
  | .advance n => return (.moved, p.advance n)
  | .retreat n => return (.moved, p.retreat n)
  | .setPosition n => return (.moved, p.setPosition n)
  | .consumeWhile candidates => do
    let (run, q) ← p.consumeWhile (admits candidates)
    return (.text (String.ofList run), q)
  | .readUntil stops => do
    let (run, _, q) ← p.readThrough (admits stops)
    return (.text (String.ofList run), q)
  | .readUntilLiteral literal => do
    let (run, q) ← p.readUntilLiteral literal.toList
    return (.text (String.ofList run), q)
  | .skipUntil stops => do
    let (_, found, q) ← p.readThrough (admits stops)
    return (.flag found, q)
  | .skipUntilLiteral literal => do
    let (found, q) ← p.skipUntilLiteral literal.toList
    return (.flag found, q)

/-- **Performs operations in order**: the pointer after them. -/
def run (p : Pointer) (ops : List Operation) : Except Stray Pointer :=
  ops.foldlM (fun p op => Prod.snd <$> p.perform op) p

end Pointer

namespace Cursor

/-- **The cursor after operations** performed in order. -/
def after (c : Cursor) (ops : List Operation) : Cursor :=
  ops.foldl (fun c op => (c.perform op).2) c

/-- Does the operation only look? -/
def Operation.isLookahead : Operation → Bool
  | hasMore | nextChar | remaining | text | lastChar | position | describe => true
  | peek _ | peekLiteral _ => true
  | _ => false

/-- Does the operation read on from where the cursor is? -/
def Operation.isScan : Operation → Bool
  | consumeWhile _ | readUntil _ | readUntilLiteral _ | skipUntil _ | skipUntilLiteral _ => true
  | _ => false

/-- **The place of a cursor by its number.** -/
def pointer (c : Cursor) : Pointer where
  text := c.text
  position := c.position
  lastChar := c.lastChar

/-! ## Moves -/

variable (c : Cursor)

theorem text_take_position_add (n : Nat) :
    c.text.take (c.position + n) = c.before.reverse ++ c.rest.take n := by
  rw [text, position, ← List.length_reverse, List.take_length_add_append]

theorem text_drop_position_add (n : Nat) : c.text.drop (c.position + n) = c.rest.drop n := by
  rw [text, position, ← List.length_reverse, List.drop_length_add_append]

/-- **Going to a position ahead is passing the characters up to it.** -/
theorem setPosition_position_add (n : Nat) : c.setPosition (c.position + n : Nat) = c.skip n := by
  rw [setPosition, skip, Int.toNat_natCast, text_take_position_add, text_drop_position_add,
    List.reverse_append, List.reverse_reverse]

theorem pointer_setPosition (n : Int) :
    (c.setPosition n).pointer = c.pointer.setPosition n := by
  have hposition : ((c.setPosition n).position : Int) = max 0 (min n c.text.length) := by
    rw [position, setPosition, List.length_reverse, List.length_take]
    omega
  rw [pointer, text_setPosition, hposition]
  rfl

/-- A step forward is bounded by the end of the text, and so is passing one
character. -/
theorem advance_pointer_one : c.pointer.advance 1 = (c.skip 1).pointer := by
  rw [← c.setPosition_position_add 1, pointer_setPosition]
  rfl

theorem position_skip (n : Nat) : (c.skip n).position = c.position + min n c.rest.length := by
  rw [position, position, skip, List.length_append, List.length_reverse, List.length_take,
    Nat.add_comm]

variable {c} in
theorem position_skip_one {x : Char} {s : List Char} (h : c.rest = x :: s) :
    (c.skip 1).position = c.position + 1 := by
  rw [position_skip, h, List.length_cons, Nat.min_eq_left (Nat.succ_pos _)]

theorem position_read (n : Nat) : (c.read n).position = c.position + min n c.rest.length :=
  c.position_skip n

theorem pointer_read (n : Nat) :
    (c.read n).pointer = ⟨c.text, (c.position + min n c.rest.length : Nat),
      (c.rest.take n).getLast?.or c.lastChar⟩ := by
  rw [pointer, text_read, position_read]
  rfl

/-- At the end of the text there is nothing to read. -/
theorem read_of_rest_eq_nil {c : Cursor} (h : c.rest = []) (n : Nat) : c.read n = c := by
  obtain ⟨before, rest, lastChar⟩ := c
  obtain rfl : rest = [] := h
  rw [read, skip, List.take_nil, List.drop_nil]
  rfl

theorem skip_skip (m n : Nat) : (c.skip m).skip n = c.skip (m + n) := by
  simp only [skip, List.take_add, List.drop_drop, List.reverse_append, List.append_assoc]

/-- **Reading on is reading.** -/
theorem read_read (m n : Nat) : (c.read m).read n = c.read (m + n) := by
  simp only [read, skip, List.take_add, List.drop_drop, List.reverse_append, List.append_assoc,
    List.getLast?_append, Option.or_assoc]

/-! ## Lookups -/

theorem text_getElem?_position_add (n : Nat) : c.text[c.position + n]? = c.rest[n]? := by
  rw [text, position, ← List.length_reverse, List.getElem?_append_right (Nat.le_add_right _ _),
    Nat.add_sub_cancel_left]

theorem charAt_position_add {n : Nat} {x : Char} (h : c.rest[n]? = some x) :
    Pointer.charAt c.text (c.position + n : Nat) = .ok x := by
  rw [Pointer.charAt, if_neg (by omega), Int.toNat_natCast, text_getElem?_position_add, h]

theorem slice_position_add (n : Nat) :
    Pointer.slice c.text c.position (c.position + n : Nat) = c.rest.take n := by
  rw [Pointer.slice, Int.toNat_natCast, Int.toNat_natCast, text_take_position_add, position,
    ← List.length_reverse, List.drop_left]

theorem find?_position (literal : List Char) :
    Pointer.find? literal c.text c.position
      = (occurrence? literal c.rest).map fun i => ((c.position + i : Nat) : Int) := by
  have hlength := c.length_text
  rw [Pointer.find?, if_neg (by omega), Int.toNat_natCast, ← rest_eq_drop]
  rfl

theorem position_lt_iff : (c.position : Int) < c.text.length ↔ c.rest ≠ [] := by
  rw [length_text, ← List.length_pos_iff]
  omega

theorem hasMore_pointer : c.pointer.hasMore = c.hasMore := by
  rw [Bool.eq_iff_iff, Pointer.hasMore, decide_eq_true_eq, hasMore, Bool.not_eq_true',
    List.isEmpty_eq_false_iff]
  exact c.position_lt_iff

variable {c} in
theorem charAt_position {x : Char} {s : List Char} (h : c.rest = x :: s) :
    Pointer.charAt c.text c.position = .ok x :=
  c.charAt_position_add (n := 0) (by rw [h]; rfl)

theorem remaining_pointer : c.pointer.text.drop c.pointer.position.toNat = c.rest :=
  c.rest_eq_drop.symm

theorem describe_pointer : c.pointer.describe = c.describe := by
  have hposition (n : Nat) : toString (n : Int) = toString n := rfl
  unfold Pointer.describe describe
  rw [remaining_pointer]
  show "Cursor(position=" ++ toString (c.position : Int) ++ _ ++ _ ++ _ = _
  rw [hposition]

theorem nextChar?_pointer : c.pointer.nextChar? = .ok c.nextChar? := by
  rw [Pointer.nextChar?, hasMore_pointer, hasMore, nextChar?]
  cases h : c.rest with
  | nil => rfl
  | cons x s =>
    show (do let y ← Pointer.charAt c.text c.position; _) = _
    rw [charAt_position h]
    rfl

theorem peek_pointer (admits : Char → Bool) : c.pointer.peek admits = .ok (c.peek admits) := by
  rw [Pointer.peek, hasMore_pointer, hasMore, peek, nextChar?]
  cases h : c.rest with
  | nil => rfl
  | cons x s =>
    show (do let y ← Pointer.charAt c.text c.position; _) = _
    rw [charAt_position h]
    rfl

/-! ## Loops -/

/-- How many characters of a literal a text begins with. -/
def spelled : List Char → List Char → Nat
  | x :: literal, y :: s => if y == x then spelled literal s + 1 else 0
  | _, _ => 0

/-- **Going along a literal** tells what the cursor tells, and stops behind what
is spelled of it. -/
theorem follow_pointer (literal : List Char) :
    c.pointer.follow literal
      = .ok (c.peekLiteral literal, (c.skip (spelled literal c.rest)).pointer) := by
  induction literal generalizing c with
  | nil => rfl
  | cons x literal ih =>
    rw [Pointer.follow, peek_pointer, peekLiteral]
    show (if c.peek (· == x) then _ else _) = _
    rw [peek, nextChar?]
    cases hs : c.rest with
    | nil => rfl
    | cons y s =>
      show (if y == x then _ else _) = Except.ok (y == x && _, _)
      rw [spelled]
      cases y == x with
      | false => rfl
      | true =>
        have hnext := ih (c.skip 1)
        rw [rest_skip, hs, skip_skip] at hnext
        rw [if_pos rfl, if_pos rfl, advance_pointer_one, Nat.add_comm _ 1]
        exact hnext

theorem peekLiteral_pointer (literal : List Char) :
    c.pointer.peekLiteral literal = .ok (c.peekLiteral literal, c.pointer) := by
  rw [Pointer.peekLiteral, follow_pointer]
  show Except.ok (_, Pointer.mk (c.skip _).text c.position c.lastChar) = _
  rw [text_skip]
  rfl

/-- **The run ends where the cursor has read it.** -/
theorem runEnd_position (admits : Char → Bool) :
    Pointer.runEnd admits c.text c.position
      = .ok (c.position + (c.rest.takeWhile admits).length : Nat) := by
  generalize hs : c.rest = s
  induction s generalizing c with
  | nil =>
    rw [Pointer.runEnd, if_neg fun h => c.position_lt_iff.mp h hs]
    rfl
  | cons x s ih =>
    have hlt : (c.position : Int) < c.text.length :=
      c.position_lt_iff.mpr (hs ▸ List.cons_ne_nil x s)
    rw [Pointer.runEnd, if_pos hlt, charAt_position hs, List.takeWhile_cons]
    show (if admits x then _ else _) = _
    cases admits x with
    | false => rfl
    | true =>
      have hnext := ih (c.skip 1) (by rw [rest_skip, hs]; rfl)
      rw [text_skip, position_skip_one hs, Int.natCast_succ] at hnext
      rw [if_pos rfl, hnext, if_pos rfl, List.length_cons, Nat.add_right_comm]
      rfl

/-- The last character of a run, if there is one, is before its end. -/
theorem lastCharUpTo_pointer {n : Nat} (h : n ≤ c.rest.length) :
    c.pointer.lastCharUpTo (c.position + n : Nat)
      = .ok ((c.rest.take n).getLast?.or c.lastChar) := by
  show (if (c.position : Int) < _ then some <$> Pointer.charAt c.text _ else _) = _
  cases n with
  | zero =>
    rw [if_neg (by omega)]
    rfl
  | succ n =>
    have hlast : c.rest[n]? = some c.rest[n] := List.getElem?_eq_getElem h
    have hposition : ((c.position + (n + 1) : Nat) : Int) - 1 = (c.position + n : Nat) := by omega
    rw [if_pos (by omega), hposition, c.charAt_position_add hlast, List.take_add_one, hlast,
      Option.toList_some, List.getLast?_concat]
    rfl

theorem consumeWhile_pointer (admits : Char → Bool) :
    c.pointer.consumeWhile admits
      = .ok ((c.consumeWhile admits).1, (c.consumeWhile admits).2.pointer) := by
  have hle : (c.rest.takeWhile admits).length ≤ c.rest.length :=
    (List.takeWhile_prefix admits).length_le
  have hrun : c.rest.take (c.rest.takeWhile admits).length = c.rest.takeWhile admits :=
    List.prefix_iff_eq_take.mp (List.takeWhile_prefix admits) |>.symm
  rw [Pointer.consumeWhile]
  show (do let last ← Pointer.runEnd admits c.text c.position; _) = _
  rw [runEnd_position]
  show (do let lastChar ← c.pointer.lastCharUpTo _; _) = _
  rw [c.lastCharUpTo_pointer hle]
  show Except.ok (Pointer.slice c.text c.position _, _) = _
  rw [slice_position_add, hrun, consumeWhile, pointer_read, Nat.min_eq_left hle, hrun]
  rfl

section Steps

variable {c} {x : Char} {s : List Char} {stop : Char → Bool}

/-- The pointer after one character read is that of the cursor. -/
theorem pointer_read_one (h : c.rest = x :: s) :
    (c.read 1).pointer = ⟨c.text, c.position + 1, some x⟩ := by
  rw [pointer_read, h, List.length_cons, Nat.min_eq_left (Nat.succ_pos _)]
  rfl

theorem readUntil_of_stop (h : c.rest = x :: s) (hx : stop x = true) :
    c.readUntil stop = ([], c.read 1) := by
  rw [readUntil, h, List.takeWhile_cons_of_neg (by rw [hx]; decide)]
  rfl

theorem readUntil_of_not_stop (h : c.rest = x :: s) (hx : stop x = false) :
    c.readUntil stop = (x :: ((c.read 1).readUntil stop).1, ((c.read 1).readUntil stop).2) := by
  rw [readUntil, readUntil, rest_read, h, List.takeWhile_cons_of_pos (by rw [hx]; rfl), read_read,
    List.length_cons, Nat.add_comm 1, List.drop_succ_cons, List.drop_zero]

end Steps

/-- **Reading up to a stop one by one** is reading up to it. -/
theorem readThrough_pointer (stop : Char → Bool) :
    c.pointer.readThrough stop
      = .ok ((c.readUntil stop).1, c.rest.any stop, (c.readUntil stop).2.pointer) := by
  generalize hs : c.rest = s
  induction s generalizing c with
  | nil =>
    have hlt : ¬ c.pointer.position < c.pointer.text.length := fun h => c.position_lt_iff.mp h hs
    rw [Pointer.readThrough, if_neg hlt, readUntil, hs, read_of_rest_eq_nil hs]
    rfl
  | cons x s ih =>
    have hlt : c.pointer.position < c.pointer.text.length :=
      c.position_lt_iff.mpr (hs ▸ List.cons_ne_nil x s)
    rw [Pointer.readThrough, if_pos hlt]
    show (do let y ← Pointer.charAt c.text c.position; _) = _
    rw [charAt_position hs, List.any_cons]
    show (if stop x then _ else _) = _
    cases hx : stop x with
    | true =>
      rw [if_pos rfl, readUntil_of_stop hs hx, pointer_read_one hs]
      rfl
    | false =>
      rw [if_neg Bool.false_ne_true]
      show Except.bind (Pointer.readThrough stop ⟨c.text, c.position + 1, some x⟩) _ = _
      rw [← pointer_read_one hs, ih (c.read 1) (by rw [rest_read, hs]; rfl),
        readUntil_of_not_stop hs hx]
      rfl

/-! ## Literals -/

/-- **Where a literal occurs, the text goes on with it.** -/
theorem isPrefix_drop_of_occurrence? {literal s : List Char} {i : Nat}
    (h : occurrence? literal s = some i) : literal <+: s.drop i := by
  induction s generalizing i with
  | nil =>
    rw [occurrence?] at h
    split at h
    · rename_i hempty
      rw [List.isEmpty_iff.mp hempty]
      exact List.nil_prefix
    · exact absurd h.symm (Option.some_ne_none i)
  | cons x s ih =>
    rw [occurrence?] at h
    split at h
    · rename_i hfront
      obtain rfl := Option.some.inj h
      exact List.isPrefixOf_iff_prefix.mp hfront
    · obtain ⟨j, hj, rfl⟩ := Option.map_eq_some_iff.mp h
      exact ih hj

theorem occurrence?_nil (s : List Char) : occurrence? [] s = some 0 := by
  cases s <;> rfl

/-- The literal and what comes before it are within the text. -/
theorem add_length_le_of_occurrence? {literal s : List Char} {i : Nat}
    (h : occurrence? literal s = some i) : i + literal.length ≤ s.length := by
  have hle := (isPrefix_drop_of_occurrence? h).length_le
  rw [List.length_drop] at hle
  cases literal with
  | nil =>
    obtain rfl := Option.some.inj ((occurrence?_nil s).symm.trans h)
    exact Nat.zero_le _
  | cons x literal =>
    rw [List.length_cons] at hle ⊢
    omega

variable {c} in
/-- What is remembered of a literal is the last character read with it. -/
theorem lastCharOf_literal {literal : List Char} {i : Nat}
    (h : occurrence? literal c.rest = some i) :
    c.pointer.lastCharOf (!literal.isEmpty) literal
      = .ok ((c.rest.take (i + literal.length)).getLast?.or c.lastChar) := by
  cases literal with
  | nil =>
    obtain rfl := Option.some.inj ((occurrence?_nil _).symm.trans h)
    rfl
  | cons x literal =>
    have hlast : (x :: literal).getLast? = some ((x :: literal).getLast (List.cons_ne_nil _ _)) :=
      List.getLast?_eq_some_getLast _
    rw [List.take_add, ← List.prefix_iff_eq_take.mp (isPrefix_drop_of_occurrence? h),
      List.getLast?_append, hlast, Option.some_or, Option.some_or]
    show some <$> Pointer.charAtEnd (x :: literal) = _
    rw [Pointer.charAtEnd, hlast]
    rfl

/-- **Going to the end is passing everything that is left.** -/
theorem pointer_setPosition_length :
    c.pointer.setPosition c.pointer.text.length = (c.skip c.rest.length).pointer := by
  show c.pointer.setPosition c.text.length = _
  rw [← setPosition_position_add, ← length_text, pointer_setPosition]

/-- What is remembered at the end of the text is its last character, unless
nothing was left of it. -/
theorem lastCharOf_text :
    c.pointer.lastCharOf (c.position < ((c.position + c.rest.length : Nat) : Int)) c.text
      = .ok ((c.rest.take c.rest.length).getLast?.or c.lastChar) := by
  rw [List.take_length, Pointer.lastCharOf]
  cases h : c.rest with
  | nil =>
    rw [if_neg (by rw [decide_eq_true_eq, List.length_nil]; omega)]
    rfl
  | cons x s =>
    have hlast : c.text.getLast? = (x :: s).getLast? := by
      rw [text, h, List.getLast?_append, List.getLast?_eq_some_getLast (List.cons_ne_nil x s),
        Option.some_or]
    rw [if_pos (by rw [decide_eq_true_eq, List.length_cons]; omega), Pointer.charAtEnd, hlast,
      List.getLast?_eq_some_getLast (List.cons_ne_nil x s)]
    rfl

variable {c} in
/-- The pointer behind an occurrence of a literal is that of the cursor. -/
theorem pointer_read_literal {literal : List Char} {i : Nat}
    (h : occurrence? literal c.rest = some i) :
    (c.read (i + literal.length)).pointer
      = ⟨c.text, ((c.position + i : Nat) : Int) + literal.length,
          (c.rest.take (i + literal.length)).getLast?.or c.lastChar⟩ := by
  rw [pointer_read, Nat.min_eq_left (add_length_le_of_occurrence? h), ← Nat.add_assoc,
    Int.natCast_add]

theorem readUntilLiteral_pointer (literal : List Char) :
    c.pointer.readUntilLiteral literal
      = .ok ((c.readUntilLiteral literal).1, (c.readUntilLiteral literal).2.pointer) := by
  rw [Pointer.readUntilLiteral, readUntilLiteral]
  by_cases hempty : literal.isEmpty = true
  · rw [if_pos hempty, if_pos hempty]
    rfl
  rw [if_neg hempty, if_neg hempty]
  show (match Pointer.find? literal c.text c.position with | some i => _ | none => _) = _
  rw [find?_position]
  cases h : occurrence? literal c.rest with
  | none =>
    have hposition : (c.skip c.rest.length).pointer.position
        = ((c.position + c.rest.length : Nat) : Int) := by
      rw [pointer, position_skip, Nat.min_self]
    show (do let lastChar ← c.pointer.lastCharOf
              (c.position < (c.pointer.setPosition c.pointer.text.length).position) c.text; _) = _
    rw [pointer_setPosition_length, hposition, lastCharOf_text]
    show Except.ok (c.text.drop c.position, _) = Except.ok (c.rest, (c.read c.rest.length).pointer)
    rw [← rest_eq_drop, pointer_read, Nat.min_self, pointer, text_skip]
  | some i =>
    have hlast := lastCharOf_literal h
    rw [Bool.eq_false_iff.mpr hempty] at hlast
    show (do let lastChar ← c.pointer.lastCharOf (!false) literal; _) = _
    rw [hlast]
    show Except.ok (Pointer.slice c.text c.position _, _) = _
    rw [slice_position_add, pointer_read_literal h]
    rfl

theorem skipUntilLiteral_pointer (literal : List Char) :
    c.pointer.skipUntilLiteral literal
      = .ok ((c.skipUntilLiteral literal).1, (c.skipUntilLiteral literal).2.pointer) := by
  rw [Pointer.skipUntilLiteral, skipUntilLiteral]
  by_cases hshort : c.text.length < literal.length
  · have hpointer : c.pointer.text.length < literal.length := hshort
    rw [if_pos hshort, if_pos hpointer]
    rfl
  have hpointer : ¬ c.pointer.text.length < literal.length := hshort
  rw [if_neg hshort, if_neg hpointer]
  show (match Pointer.find? literal c.text c.position with | some i => _ | none => _) = _
  rw [find?_position]
  cases h : occurrence? literal c.rest with
  | none =>
    show Except.ok (false, c.pointer.setPosition c.pointer.text.length) = _
    rw [pointer_setPosition_length]
  | some i =>
    show (do let lastChar ← c.pointer.lastCharOf (!literal.isEmpty) literal; _) = _
    rw [lastCharOf_literal h, pointer_read_literal h]
    rfl

/-! ## Operations -/

/-- **An operation on the pointer of a cursor is the operation on the cursor**: it
does not stray, answers the same, and leads to the pointer of the cursor that the
operation leads to. -/
theorem perform_pointer (op : Operation) :
    c.pointer.perform op = .ok ((c.perform op).1, (c.perform op).2.pointer) := by
  cases op with
  | hasMore =>
    rw [Pointer.perform, hasMore_pointer]
    rfl
  | nextChar =>
    rw [Pointer.perform, nextChar?_pointer]
    rfl
  | remaining =>
    rw [Pointer.perform, remaining_pointer]
    rfl
  | text | lastChar | position => rfl
  | describe =>
    rw [Pointer.perform, describe_pointer]
    rfl
  | peek candidates =>
    rw [Pointer.perform, peek_pointer]
    rfl
  | peekLiteral literal =>
    rw [Pointer.perform, peekLiteral_pointer]
    rfl
  | advance n =>
    rw [Pointer.perform, Pointer.advance, perform, advance, pointer_setPosition]
    rfl
  | retreat n =>
    rw [Pointer.perform, Pointer.retreat, perform, retreat, pointer_setPosition]
    rfl
  | setPosition n =>
    rw [Pointer.perform, perform, pointer_setPosition]
    rfl
  | consumeWhile candidates =>
    rw [Pointer.perform, consumeWhile_pointer]
    rfl
  | readUntil stops | skipUntil stops =>
    rw [Pointer.perform, readThrough_pointer]
    rfl
  | readUntilLiteral literal =>
    rw [Pointer.perform, readUntilLiteral_pointer]
    rfl
  | skipUntilLiteral literal =>
    rw [Pointer.perform, skipUntilLiteral_pointer]
    rfl

/-- **No operation strays**, after any others. -/
theorem run_pointer (ops : List Operation) : c.pointer.run ops = .ok (c.after ops).pointer := by
  induction ops generalizing c with
  | nil => rfl
  | cons op ops ih =>
    rw [Pointer.run, List.foldlM_cons, perform_pointer]
    exact ih (c.perform op).2

/-! ## Where an operation leads -/

theorem perform_lookahead {op : Operation} (h : op.isLookahead = true) : (c.perform op).2 = c := by
  cases op with
  | hasMore | nextChar | remaining | text | lastChar | position | describe => rfl
  | peek _ | peekLiteral _ => rfl
  | advance _ | retreat _ | setPosition _ => cases h
  | consumeWhile _ | readUntil _ | readUntilLiteral _ | skipUntil _ | skipUntilLiteral _ => cases h

/-- **A scan reads or skips some characters**, and does nothing else. -/
theorem perform_scan {op : Operation} (h : op.isScan = true) :
    ∃ n, (c.perform op).2 = c.read n ∨ (c.perform op).2 = c.skip n := by
  cases op with
  | consumeWhile _ | readUntil _ | skipUntil _ => exact ⟨_, .inl rfl⟩
  | readUntilLiteral literal =>
    simp only [perform, readUntilLiteral]
    split
    · exact ⟨0, .inl rfl⟩
    · split
      · exact ⟨_, .inl rfl⟩
      · exact ⟨_, .inl rfl⟩
  | skipUntilLiteral literal =>
    simp only [perform, skipUntilLiteral]
    split
    · exact ⟨0, .inr rfl⟩
    · split
      · exact ⟨_, .inl rfl⟩
      · exact ⟨_, .inr rfl⟩
  | hasMore | nextChar | remaining | text | lastChar | position | describe => cases h
  | peek _ | peekLiteral _ | advance _ | retreat _ | setPosition _ => cases h

/-- **An operation stays where it is, goes to a position, reads or skips.** -/
theorem perform_cases (op : Operation) :
    (c.perform op).2 = c ∨ (∃ n, (c.perform op).2 = c.setPosition n)
      ∨ (∃ n, (c.perform op).2 = c.read n) ∨ ∃ n, (c.perform op).2 = c.skip n := by
  by_cases hscan : op.isScan = true
  · obtain ⟨n, h | h⟩ := c.perform_scan hscan
    · exact .inr (.inr (.inl ⟨n, h⟩))
    · exact .inr (.inr (.inr ⟨n, h⟩))
  by_cases hlook : op.isLookahead = true
  · exact .inl (c.perform_lookahead hlook)
  cases op with
  | advance _ | retreat _ | setPosition _ => exact .inr (.inl ⟨_, rfl⟩)
  | hasMore | nextChar | remaining | text | lastChar | position | describe =>
    exact absurd rfl hlook
  | peek _ | peekLiteral _ => exact absurd rfl hlook
  | consumeWhile _ | readUntil _ | readUntilLiteral _ | skipUntil _ | skipUntilLiteral _ =>
    exact absurd rfl hscan

theorem text_perform (op : Operation) : (c.perform op).2.text = c.text := by
  rcases c.perform_cases op with h | ⟨n, h⟩ | ⟨n, h⟩ | ⟨n, h⟩
  · rw [h]
  · rw [h, text_setPosition]
  · rw [h, text_read]
  · rw [h, text_skip]

/-- Does the text have the last character that was read? -/
def RemembersText (c : Cursor) : Prop :=
  ∀ x ∈ c.lastChar, x ∈ c.text

variable {c} in
theorem RemembersText.perform (h : c.RemembersText) (op : Operation) :
    (c.perform op).2.RemembersText := by
  intro x hx
  rw [text_perform]
  rcases c.perform_cases op with hop | ⟨n, hop⟩ | ⟨n, hop⟩ | ⟨n, hop⟩
  · exact h x (hop ▸ hx)
  · exact h x (show x ∈ (c.setPosition n).lastChar from hop ▸ hx)
  · have hx : x ∈ (c.rest.take n).getLast?.or c.lastChar :=
      show x ∈ (c.read n).lastChar from hop ▸ hx
    rcases Option.or_eq_some_iff.mp hx with hx | ⟨_, hx⟩
    · have hrest := List.mem_of_mem_take (List.mem_of_getLast? hx)
      exact List.mem_append_right _ hrest
    · exact h x hx
  · exact h x (show x ∈ (c.skip n).lastChar from hop ▸ hx)

/-- What every operation keeps holds after any number of them. -/
theorem after_induction {motive : Cursor → Prop} (start : motive c)
    (step : ∀ d op, motive d → motive (d.perform op).2) (ops : List Operation) :
    motive (c.after ops) := by
  induction ops generalizing c with
  | nil => exact start
  | cons op ops ih => exact ih (c.perform op).2 (step c op start)

theorem text_after (ops : List Operation) : (c.after ops).text = c.text :=
  c.after_induction (motive := fun d => d.text = c.text) rfl
    (fun d op hd => (d.text_perform op).trans hd) ops

/-- **A cursor stays in its text**, whatever is asked of it and however often. Kept
as a number, with nothing to bound it, its place is never one where a character
is looked up and not found; the text does not change, and the position is one of
the text. The last character read is one of it, if there is any. From there on,
whatever is asked next, a lookahead changes neither of the two and a scan does
not go back. -/
theorem stays_in_text (text : List Char) (ops : List Operation) :
    ∃ p, (Pointer.start text).run ops = .ok p ∧ p = ((ofList text).after ops).pointer
      ∧ p.text = text ∧ 0 ≤ p.position ∧ p.position ≤ text.length
      ∧ (∀ x ∈ p.lastChar, x ∈ text)
      ∧ ∀ op, ∃ q, p.perform op = .ok ((((ofList text).after ops).perform op).1, q)
        ∧ (op.isLookahead = true → q.position = p.position ∧ q.lastChar = p.lastChar)
        ∧ (op.isScan = true → p.position ≤ q.position) := by
  have hrun := (ofList text).run_pointer ops
  have htext : ((ofList text).after ops).text = text := by rw [text_after, text_ofList]
  have hlast : ((ofList text).after ops).RemembersText :=
    after_induction _ (fun x hx => absurd hx (Option.not_mem_none x)) (fun _ op hd => hd.perform op)
      ops
  generalize (ofList text).after ops = c at *
  have hlength := htext ▸ c.length_text
  refine ⟨c.pointer, hrun, rfl, htext, Int.natCast_nonneg _, ?_, fun x hx => htext ▸ hlast x hx,
    fun op => ⟨_, c.perform_pointer op, fun h => ?_, fun h => ?_⟩⟩
  · show (c.position : Int) ≤ text.length
    omega
  · rw [c.perform_lookahead h]
    exact ⟨rfl, rfl⟩
  · show (c.position : Int) ≤ (c.perform op).2.position
    obtain ⟨n, h | h⟩ := c.perform_scan h
    · rw [h, position_read]
      omega
    · rw [h, position_skip]
      omega

end Cursor

end Reckon
