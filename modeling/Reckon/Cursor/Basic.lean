/-!
# Cursors

A cursor is a place in a text. It is kept as the characters before the
place, nearest first, and the characters after it: moving is passing
characters from one side to the other, and the text itself, `Cursor.text`,
cannot change.

Every operation is total. A move beyond either end stops at that end, a
test at the end of the text fails, and a search that finds nothing runs
to the end.

A cursor also remembers the last character that a *reading* passed.
`Cursor.read` is the move that records it and `Cursor.skip` the one that
does not; every operation that goes forward is one of the two.
-/

namespace Reckon

/-- **A place in a text.** -/
structure Cursor where
  /-- The characters before the place, the nearest one first. -/
  before : List Char
  /-- The characters after the place, in order. -/
  rest : List Char
  /-- The last character that a reading passed, if there was any. -/
  lastChar : Option Char
deriving Repr, DecidableEq

namespace Cursor

/-- The start of a text. -/
def ofList (text : List Char) : Cursor where
  before := []
  rest := text
  lastChar := none

/-- The whole text. -/
def text (c : Cursor) : List Char :=
  c.before.reverse ++ c.rest

/-- How many characters are before the place. -/
def position (c : Cursor) : Nat :=
  c.before.length

/-- Is there a character after the place? -/
def hasMore (c : Cursor) : Bool :=
  !c.rest.isEmpty

/-- The character after the place, if there is one. -/
def nextChar? (c : Cursor) : Option Char :=
  c.rest.head?

/-! ## Moves -/

/-- Goes forward over `n` characters, or to the end, reading none. -/
def skip (n : Nat) (c : Cursor) : Cursor where
  before := (c.rest.take n).reverse ++ c.before
  rest := c.rest.drop n
  lastChar := c.lastChar

/-- **Goes forward over `n` characters**, or to the end, and remembers
the last one passed. -/
def read (n : Nat) (c : Cursor) : Cursor :=
  { c.skip n with lastChar := (c.rest.take n).getLast?.or c.lastChar }

/-- **Goes to a position.** One before the text means its start, and one
after it means its end. -/
def setPosition (p : Int) (c : Cursor) : Cursor where
  before := (c.text.take p.toNat).reverse
  rest := c.text.drop p.toNat
  lastChar := c.lastChar

/-- Goes `n` characters forward, or back if `n` is negative. -/
def advance (n : Int) (c : Cursor) : Cursor :=
  c.setPosition (c.position + n)

/-- Goes `n` characters back, or forward if `n` is negative. -/
def retreat (n : Int) (c : Cursor) : Cursor :=
  c.setPosition (c.position - n)

/-! ## Tests -/

/-- Is the next character one of those that `admits` accepts? -/
def peek (admits : Char → Bool) (c : Cursor) : Bool :=
  c.nextChar?.any admits

/-- **Do the next characters spell the literal?** The test walks along
the literal with a cursor of its own. -/
def peekLiteral (c : Cursor) : List Char → Bool
  | [] => true
  | x :: literal => c.peek (· == x) && (c.skip 1).peekLiteral literal

/-! ## Searches -/

/-- **Where the literal first occurs** in a text, if it does. -/
def occurrence? (literal : List Char) : List Char → Option Nat
  | [] => if literal.isEmpty then some 0 else none
  | x :: text =>
    if literal.isPrefixOf (x :: text) then some 0
    else (occurrence? literal text).map (· + 1)

/-- Reads the longest run of characters that `admits` accepts. -/
def consumeWhile (admits : Char → Bool) (c : Cursor) : List Char × Cursor :=
  let run := c.rest.takeWhile admits
  (run, c.read run.length)

/-- **Reads up to the first stop character.** The stop is passed but is
not part of what is read. -/
def readUntil (stop : Char → Bool) (c : Cursor) : List Char × Cursor :=
  let run := c.rest.takeWhile fun x => !stop x
  (run, c.read (run.length + 1))

/-- **Reads up to the first occurrence of the literal.** The literal is
passed but is not part of what is read. Without an occurrence the rest of
the text is read; the empty literal reads nothing. -/
def readUntilLiteral (literal : List Char) (c : Cursor) : List Char × Cursor :=
  if literal.isEmpty then ([], c)
  else
    match occurrence? literal c.rest with
    | some i => (c.rest.take i, c.read (i + literal.length))
    | none => (c.rest, c.read c.rest.length)

/-- Passes the first stop character. Was there one? -/
def skipUntil (stop : Char → Bool) (c : Cursor) : Bool × Cursor :=
  let run := c.rest.takeWhile fun x => !stop x
  (c.rest.any stop, c.read (run.length + 1))

/-- **Passes the first occurrence of the literal.** Was there one? A
literal longer than the whole text is not looked for. A search that
fails goes to the end without having read anything. -/
def skipUntilLiteral (literal : List Char) (c : Cursor) : Bool × Cursor :=
  if c.text.length < literal.length then (false, c)
  else
    match occurrence? literal c.rest with
    | some i => (true, c.read (i + literal.length))
    | none => (false, c.skip c.rest.length)

/-! ## What the moves do to the text -/

@[simp] theorem text_ofList (s : List Char) : (ofList s).text = s := by
  simp [ofList, text]

@[simp] theorem text_skip (n : Nat) (c : Cursor) : (c.skip n).text = c.text := by
  simp [skip, text]

@[simp] theorem text_read (n : Nat) (c : Cursor) : (c.read n).text = c.text := by
  simp [read, skip, text]

@[simp] theorem text_setPosition (p : Int) (c : Cursor) :
    (c.setPosition p).text = c.text := by
  simp [setPosition, text]

@[simp] theorem rest_skip (n : Nat) (c : Cursor) :
    (c.skip n).rest = c.rest.drop n := rfl

@[simp] theorem rest_read (n : Nat) (c : Cursor) :
    (c.read n).rest = c.rest.drop n := rfl

/-- What is read and what is left are the characters that were ahead. -/
theorem consumeWhile_append (admits : Char → Bool) (c : Cursor) :
    (c.consumeWhile admits).1 ++ (c.consumeWhile admits).2.rest = c.rest := by
  simp only [consumeWhile, rest_read]
  generalize c.rest = s
  induction s with
  | nil => rfl
  | cons x s ih =>
    rw [List.takeWhile_cons]
    split <;> simp [ih]

/-- A run leaves no more than there was. -/
theorem length_rest_consumeWhile_le (admits : Char → Bool) (c : Cursor) :
    (c.consumeWhile admits).2.rest.length ≤ c.rest.length := by
  simp [consumeWhile]

end Cursor

end Reckon
