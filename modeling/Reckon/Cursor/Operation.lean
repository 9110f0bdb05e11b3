import Reckon.Cursor.Basic
import Reckon.Text.Quoted

/-!
# Operations on a cursor

What can be asked of a cursor, as a type: tests and views leave it where
it is, moves and searches give a cursor back. Characters to look for are
given as texts. A text of one character stands for it; a text of any
other length is no character and is never found.
-/

namespace Reckon

/-- Does one of the texts stand for the character? -/
def admits (candidates : List String) (c : Char) : Bool :=
  candidates.contains (String.singleton c)

/-- A cursor by its place. -/
def Cursor.describe (c : Cursor) : String :=
  "Cursor(position=" ++ toString c.position ++ ", remaining=" ++
    Text.quote (String.ofList c.rest) ++ ")"

namespace Cursor

/-- **Something asked of a cursor.** -/
inductive Operation where
  | hasMore
  | nextChar
  | remaining
  | text
  | lastChar
  | position
  | describe
  | peek (candidates : List String)
  | peekLiteral (literal : String)
  | advance (n : Int)
  | retreat (n : Int)
  | setPosition (n : Int)
  | consumeWhile (candidates : List String)
  | readUntil (stops : List String)
  | readUntilLiteral (literal : String)
  | skipUntil (stops : List String)
  | skipUntilLiteral (literal : String)
deriving Repr, DecidableEq

/-- **What a cursor answers.** -/
inductive Reply where
  /-- Nothing: the cursor has moved. -/
  | moved
  | flag (b : Bool)
  | number (n : Nat)
  | character (c : Option Char)
  | text (s : String)
deriving Repr, DecidableEq

/-- **Performs an operation.** -/
def perform (c : Cursor) : Operation → Reply × Cursor
  | .hasMore => (.flag c.hasMore, c)
  | .nextChar => (.character c.nextChar?, c)
  | .remaining => (.text (String.ofList c.rest), c)
  | .text => (.text (String.ofList c.text), c)
  | .lastChar => (.text (c.lastChar.elim "" String.singleton), c)
  | .position => (.number c.position, c)
  | .describe => (.text c.describe, c)
  | .peek candidates => (.flag (c.peek (admits candidates)), c)
  | .peekLiteral literal => (.flag (c.peekLiteral literal.toList), c)
  | .advance n => (.moved, c.advance n)
  | .retreat n => (.moved, c.retreat n)
  | .setPosition n => (.moved, c.setPosition n)
  | .consumeWhile candidates =>
    let (run, d) := c.consumeWhile (admits candidates)
    (.text (String.ofList run), d)
  | .readUntil stops =>
    let (run, d) := c.readUntil (admits stops)
    (.text (String.ofList run), d)
  | .readUntilLiteral literal =>
    let (run, d) := c.readUntilLiteral literal.toList
    (.text (String.ofList run), d)
  | .skipUntil stops =>
    let (found, d) := c.skipUntil (admits stops)
    (.flag found, d)
  | .skipUntilLiteral literal =>
    let (found, d) := c.skipUntilLiteral literal.toList
    (.flag found, d)

end Cursor

end Reckon
