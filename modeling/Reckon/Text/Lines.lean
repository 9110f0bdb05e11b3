/-!
# Lines

A text falls into lines at every character that Unicode or ASCII uses to
end a line, form, file or record; a carriage return and the newline after
it end one line together. The ends are no part of the lines, and a text
that ends with one has no empty line after it.
-/

namespace Reckon.Text

/-- Does the character end a line? -/
def endsLine (c : Char) : Bool :=
  let n := c.toNat
  (0x0a ≤ n && n ≤ 0x0d) || (0x1c ≤ n && n ≤ 0x1e) || n == 0x85 ||
    n == 0x2028 || n == 0x2029

/-- The lines of a text that follows the unfinished line `line`, held
back to front. -/
def linesFrom (line : List Char) : List Char → List (List Char)
  | [] => if line.isEmpty then [] else [line.reverse]
  | '\r' :: '\n' :: rest => line.reverse :: linesFrom [] rest
  | c :: rest =>
    if endsLine c then line.reverse :: linesFrom [] rest
    else linesFrom (c :: line) rest

/-- **The lines of a text.** -/
def lines (s : String) : List String :=
  (linesFrom [] s.toList).map String.ofList

end Reckon.Text
