/-!
# Upper and lower case of keywords

Keywords are ASCII and are compared without regard to case. A few
characters outside ASCII have an ASCII letter, or several, as their other
case, so they may spell a keyword as well. Characters whose other case is
not ASCII are left as they are: they spell none either way.
-/

namespace Reckon.Text

/-- The upper case of a character, as far as it is ASCII. -/
def upperChar (c : Char) : List Char :=
  match c.toNat with
  | 0xdf => ['S', 'S']
  | 0x131 => ['I']
  | 0x17f => ['S']
  | 0xfb00 => ['F', 'F']
  | 0xfb01 => ['F', 'I']
  | 0xfb02 => ['F', 'L']
  | 0xfb03 => ['F', 'F', 'I']
  | 0xfb04 => ['F', 'F', 'L']
  | 0xfb05 => ['S', 'T']
  | 0xfb06 => ['S', 'T']
  | _ => [c.toUpper]

/-- The lower case of a character, as far as it is ASCII. -/
def lowerChar (c : Char) : Char :=
  if c.toNat == 0x212a then 'k' else c.toLower

/-- **A keyword in upper case.** -/
def upper (s : List Char) : List Char :=
  s.flatMap upperChar

/-- **A keyword in lower case.** -/
def lower (s : List Char) : List Char :=
  s.map lowerChar

end Reckon.Text
