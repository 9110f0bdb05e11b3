import Reckon.Text.Hex
import Reckon.Text.Letter
import Reckon.Text.Printable

/-!
# Quoted text

Text is quoted to be shown: between single quotes, or between double
quotes if it holds single ones and no double one. The quote in use and the
backslash are written after a backslash; tab, newline and carriage return
have escapes of their own; every other character that is not printable is
written as its code point, with two, four or eight digits. Half of a
character is written as its unit, with four.
-/

namespace Reckon.Text

/-- The quote used where there is a choice. -/
def singleQuote : Char := '\x27'

/-- The other quote. -/
def doubleQuote : Char := '\x22'

/-- The quote that a text is shown between. -/
def quoteFor (s : List Char) : Char :=
  if s.contains singleQuote && !s.contains doubleQuote then doubleQuote else singleQuote

/-- A character by its code point, in the fewest of two, four and eight
digits. -/
def escapeCode (c : Char) : List Char :=
  let n := c.toNat
  if n < 0x100 then '\\' :: 'x' :: hexDigits 2 n
  else if n < 0x10000 then '\\' :: 'u' :: hexDigits 4 n
  else '\\' :: 'U' :: hexDigits 8 n

/-- How a character is written between the given quotes. -/
def escapeChar (quote c : Char) : List Char :=
  if c == quote || c == '\\' then ['\\', c]
  else if c == '\t' then ['\\', 't']
  else if c == '\n' then ['\\', 'n']
  else if c == '\r' then ['\\', 'r']
  else if isPrintable c then [c]
  else escapeCode c

/-- How a letter is written between the given quotes. -/
def escapeLetter (quote : Char) : Letter → List Char
  | .whole c => escapeChar quote c
  | half => '\\' :: 'u' :: hexDigits 4 half.code

/-- **A text between quotes**, be it one with halves of characters. -/
def quoteLetters (s : Letters) : String :=
  let mark := quoteFor (s.map Letter.char)
  String.ofList (mark :: s.flatMap (escapeLetter mark) ++ [mark])

/-- **A string between quotes.** -/
def quote (s : String) : String :=
  quoteLetters s

end Reckon.Text
