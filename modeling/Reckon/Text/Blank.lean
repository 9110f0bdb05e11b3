/-!
# Blanks

The characters that count as blank around a text: the spaces and line
separators of Unicode together with the ASCII characters that separate
fields, groups and records. Stripping takes them off both ends.
-/

namespace Reckon.Text

/-- **Is the character blank?** -/
def isBlank (c : Char) : Bool :=
  let n := c.toNat
  (0x09 ≤ n && n ≤ 0x0d) || (0x1c ≤ n && n ≤ 0x20) || n == 0x85 || n == 0xa0 ||
    n == 0x1680 || (0x2000 ≤ n && n ≤ 0x200a) || n == 0x2028 || n == 0x2029 ||
    n == 0x202f || n == 0x205f || n == 0x3000

/-- Takes the characters that `admits` accepts off both ends. -/
def trim (admits : Char → Bool) (s : List Char) : List Char :=
  ((s.dropWhile admits).reverse.dropWhile admits).reverse

/-- **Takes the blanks off both ends.** -/
def strip (s : List Char) : List Char :=
  trim isBlank s

end Reckon.Text
