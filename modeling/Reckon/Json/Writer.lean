import Reckon.Json.Basic
import Reckon.Decimal.Layout
import Reckon.Text.Quoted

/-!
# Writing JSON

JSON is written in ASCII: every other character is an escape, in two
halves if its code point needs more than 16 bits. Half of a character
is an escape too. Doubles are written as
the text that reads back as them.

A value is written on one line, or spread over lines with the members of
each list and object further in. The two layouts differ in the breaks
between the parts and in nothing else.
-/

namespace Reckon

namespace Json

/-- **How a value is spread.** -/
inductive Spread where
  /-- On one line. -/
  | line
  /-- Over lines, each level two spaces further in. -/
  | block
deriving Repr, DecidableEq

/-- The break before a part at the given depth. -/
def Spread.start (depth : Nat) : Spread → List Char
  | line => []
  | block => '\n' :: List.replicate (2 * depth) ' '

/-- The break between two parts at the given depth. -/
def Spread.between (depth : Nat) : Spread → List Char
  | line => [',', ' ']
  | block => ',' :: block.start depth

/-- A 16-bit unit as an escape. -/
def escapeUnit (n : Nat) : List Char :=
  '\\' :: 'u' :: Text.hexDigits 4 n

/-- A code point as escapes: one up to 16 bits, else two halves. -/
def escapeCode (n : Nat) : List Char :=
  if n < 0x10000 then escapeUnit n
  else
    let n := n - 0x10000
    escapeUnit (0xd800 + n / 0x400) ++ escapeUnit (0xdc00 + n % 0x400)

/-- How a character is written in a string. -/
def escapeChar (c : Char) : List Char :=
  if c == Text.doubleQuote || c == '\\' then ['\\', c]
  else if c == '\n' then ['\\', 'n']
  else if c == '\r' then ['\\', 'r']
  else if c == '\t' then ['\\', 't']
  else if c == '\x08' then ['\\', 'b']
  else if c == '\x0c' then ['\\', 'f']
  else if 0x20 ≤ c.toNat && c.toNat < 0x7f then [c]
  else escapeCode c.toNat

/-- How a letter is written in a string. -/
def escapeLetter : Text.Letter → List Char
  | .whole c => escapeChar c
  | half => escapeUnit half.code

/-- A text with its quotes. -/
def writeString (s : Text.Letters) : List Char :=
  Text.doubleQuote :: s.flatMap escapeLetter ++ [Text.doubleQuote]

/-- A double. The undefined and the infinite ones are written by name. -/
def writeFloat (x : Float) : List Char :=
  match Binary64.ofFloat x with
  | .nan => "NaN".toList
  | .infinite negative => if negative then "-Infinity".toList else "Infinity".toList
  | .finite .. => (floatText x).toList

/-- Parts between brackets. -/
def bracket (spread : Spread) (depth : Nat) (opening closing : Char) :
    List (List Char) → List Char
  | [] => [opening, closing]
  | parts =>
    opening :: spread.start (depth + 1) ++
      (spread.between (depth + 1)).intercalate parts ++ spread.start depth ++ [closing]

mutual

/-- Writes a value at the given depth. -/
def writeAt (spread : Spread) (depth : Nat) : Json → List Char
  | null => "null".toList
  | bool b => if b then "true".toList else "false".toList
  | int n => (toString n).toList
  | float x => writeFloat x
  | str s => writeString s
  | arr items => bracket spread depth '[' ']' (writeItems spread depth items)
  | obj members => bracket spread depth '\x7b' '\x7d' (writeMembers spread depth members)

/-- Writes the items of a list. -/
def writeItems (spread : Spread) (depth : Nat) : List Json → List (List Char)
  | [] => []
  | v :: vs => writeAt spread (depth + 1) v :: writeItems spread depth vs

/-- Writes the members of an object. -/
def writeMembers (spread : Spread) (depth : Nat) :
    List (Text.Letters × Json) → List (List Char)
  | [] => []
  | (name, v) :: ms =>
    (writeString name ++ ':' :: ' ' :: writeAt spread (depth + 1) v) ::
      writeMembers spread depth ms

end

/-- **A value as text.** -/
def write (spread : Spread) (j : Json) : String :=
  String.ofList (writeAt spread 0 j)

end Json

end Reckon
