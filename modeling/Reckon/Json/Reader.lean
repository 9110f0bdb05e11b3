import Reckon.Json.Basic
import Reckon.Numeral
import Reckon.Text.Hex
import Reckon.Text.Quoted

/-!
# Reading JSON

The reader takes one value and the blanks around it. Beyond the standard
it takes the undefined and infinite numbers by name, and of several
members of one name the last. A whole number may not be longer than
`Numeral.wholeDigitLimit` digits.

A list or an object inside others takes up room in the reader, and how
much of it there is depends on who calls. Where there is none left the
reader stops, whatever the text goes on with. The room of a reading is
therefore given (`readWithin`).

Of two readings nested in each other one uses up a character, so twice
the length of the text bounds the nesting: that is the fuel that the
readers below are given, and no text runs out of it. With as much room as
fuel there is room for every nesting, and this is how `read` reads.
-/

namespace Reckon

namespace Json

/-- What is wrong with a text. -/
inductive ReadFault where
  | expectingValue
  | expectingName
  | expectingColon
  | expectingComma
  | extraData
  | unterminatedString
  | invalidControl
  | invalidEscape
  | invalidUnicodeEscape
  | byteOrderMark
  /-- A whole number has too many digits. -/
  | longInteger (digits : Nat)
  /-- There is no room for another list or object inside the others. -/
  | tooDeep (kind : String)
deriving Repr, DecidableEq

/-- **Why a text is not JSON**, with the number of characters that were
left where this showed. -/
structure ReadError where
  fault : ReadFault
  left : Nat
deriving Repr, DecidableEq

/-- What the fault is called. -/
def ReadFault.label : ReadFault → String
  | expectingValue => "Expecting value"
  | expectingName => "Expecting property name enclosed in double quotes"
  | expectingColon => "Expecting ':' delimiter"
  | expectingComma => "Expecting ',' delimiter"
  | extraData => "Extra data"
  | unterminatedString => "Unterminated string starting at"
  | invalidControl => "Invalid control character at"
  | invalidEscape => "Invalid \\escape"
  | invalidUnicodeEscape => "Invalid \\uXXXX escape"
  | byteOrderMark => "Unexpected UTF-8 BOM (decode using utf-8-sig)"
  | longInteger digits =>
    "Exceeds the limit (" ++ toString Numeral.wholeDigitLimit ++
      " digits) for integer string conversion: value has " ++ toString digits ++
      " digits; use sys.set_int_max_str_digits() to increase the limit"
  | tooDeep kind =>
    "maximum recursion depth exceeded while decoding a JSON " ++ kind ++ " from a unicode string"

/-- Is the fault one of the reader's room, and not of the text? -/
def ReadFault.isRoom : ReadFault → Bool
  | tooDeep _ => true
  | _ => false

/-- **What the error is reported as** for the given text: the fault, and
where it is. -/
def ReadError.message (text : List Char) (e : ReadError) : String :=
  match e.fault with
  | .longInteger _ | .tooDeep _ => e.fault.label
  | _ =>
    let position := text.length - e.left
    let before := text.take position
    let line := before.count '\n' + 1
    let column := (before.reverse.takeWhile (· != '\n')).length + 1
    e.fault.label ++ ": line " ++ toString line ++ " column " ++ toString column ++
      " (char " ++ toString position ++ ")"

/-- What a reading gives: a result and the rest of the text. -/
abbrev Reading (τ : Type) : Type := Except ReadError (τ × List Char)

/-- Fails where `s` is left. -/
def failAt {τ : Type} (fault : ReadFault) (s : List Char) : Reading τ :=
  .error ⟨fault, s.length⟩

/-- Is the character blank between the parts of a value? -/
def isBlank (c : Char) : Bool :=
  c == ' ' || c == '\t' || c == '\n' || c == '\r'

/-- Passes the blanks. -/
def skipBlanks (s : List Char) : List Char :=
  s.dropWhile isBlank

/-! ## Strings -/

/-- The character that a one-letter escape stands for. -/
def unescape? (c : Char) : Option Char :=
  if c == Text.doubleQuote || c == '\\' || c == '/' then some c
  else if c == 'b' then some '\x08'
  else if c == 'f' then some '\x0c'
  else if c == 'n' then some '\n'
  else if c == 'r' then some '\r'
  else if c == 't' then some '\t'
  else none

/-- Reads the four digits of a unit. A text that ends with them has no
unit, because the string around it is still open. -/
def readUnit? (s : List Char) : Option (Text.Letter × List Char) :=
  match s.drop 4 with
  | [] => none
  | rest => (Text.ofHexDigits? (s.take 4)).map fun n => (.ofUnit n, rest)

/-- **Reads an escaped letter** after the mark: one unit, or two that are
the halves of a character. -/
def readEscaped? (s : List Char) : Option (Text.Letter × List Char) := do
  let (letter, rest) ← readUnit? s
  match letter, rest with
  | .first a, '\\' :: 'u' :: more =>
    match readUnit? more with
    | some (.second b, rest) => some (.whole (Text.Letter.join a b), rest)
    | _ => some (letter, rest)
  | _, _ => some (letter, rest)

/-- Reads the letters of a string up to its closing quote. `start` is
what is left from its opening quote on. -/
def readLetters (start : Nat) : Nat → List Char → Reading Text.Letters
  | 0, _ => .error ⟨.unterminatedString, start⟩
  | _ + 1, [] => .error ⟨.unterminatedString, start⟩
  | fuel + 1, c :: s =>
    if c == Text.doubleQuote then .ok ([], s)
    else if c == '\\' then
      match s with
      | [] => .error ⟨.unterminatedString, start⟩
      | 'u' :: rest =>
        match readEscaped? rest with
        | some (x, rest) =>
          (readLetters start fuel rest).map fun (xs, rest) => (x :: xs, rest)
        | none => failAt .invalidUnicodeEscape s
      | e :: rest =>
        match unescape? e with
        | some x =>
          (readLetters start fuel rest).map fun (xs, rest) => (.whole x :: xs, rest)
        | none => failAt .invalidEscape (c :: s)
    else if c.toNat < 0x20 then failAt .invalidControl (c :: s)
    else (readLetters start fuel s).map fun (xs, rest) => (.whole c :: xs, rest)

/-- Reads a string after its opening quote. -/
def readString (s : List Char) : Reading Text.Letters :=
  readLetters (s.length + 1) (s.length + 1) s

/-! ## Numbers -/

/-- The digits at the front. -/
def digits (s : List Char) : List Char :=
  s.takeWhile Char.isDigit

/-- The whole part at the front: a zero, or digits that start with
another one. -/
def wholePart (s : List Char) : List Char :=
  match s with
  | '0' :: _ => ['0']
  | _ => digits s

/-- The point and the digits at the front, if both are there. -/
def fractionPart (s : List Char) : List Char :=
  match s with
  | '.' :: rest => if (digits rest).isEmpty then [] else '.' :: digits rest
  | _ => []

/-- The exponent at the front, if it is complete. -/
def exponentPart (s : List Char) : List Char :=
  match s with
  | mark :: rest =>
    if Numeral.marksExponent mark then
      let sign := rest.take 1 |>.filter fun c => c == '+' || c == '-'
      let ds := digits (rest.drop sign.length)
      if ds.isEmpty then [] else mark :: sign ++ ds
    else []
  | [] => []

/-- **Reads a number**: as much as forms one. -/
def readNumber (s : List Char) : Reading Json :=
  let (negative, body) :=
    match s with
    | '-' :: rest => (true, rest)
    | _ => (false, s)
  let whole := wholePart body
  if whole.isEmpty then failAt .expectingValue s
  else
    let rest := body.drop whole.length
    let fraction := fractionPart rest
    let rest := rest.drop fraction.length
    let exponent := exponentPart rest
    let rest := rest.drop exponent.length
    if fraction.isEmpty && exponent.isEmpty then
      if Numeral.wholeDigitLimit < whole.length then
        failAt (.longInteger whole.length) s
      else
        let n : Int := Nat.ofDigitChars 10 whole 0
        .ok (.int (if negative then -n else n), rest)
    else
      match Numeral.readDecimal? (whole ++ fraction ++ exponent) with
      | some d => .ok (.float (Binary64.ofDecimal negative d), rest)
      | none => failAt .expectingValue s

/-! ## Values -/

/-- The values that are words. -/
def words : List (List Char × Json) :=
  [("null".toList, .null), ("true".toList, .bool true), ("false".toList, .bool false),
    ("NaN".toList, .float Binary64.undefined),
    ("Infinity".toList, .float (Binary64.infinity false)),
    ("-Infinity".toList, .float (Binary64.infinity true))]

/-- Reads a value that is a word. -/
def readWord? (s : List Char) : Option (Json × List Char) :=
  (words.find? fun w => w.1.isPrefixOf s).map fun w => (w.2, s.drop w.1.length)

/-- Reads a value that has no parts: a string, a word or a number. -/
def readSimple (s : List Char) : Reading Json :=
  match s with
  | '\x22' :: rest => (readString rest).map fun (x, rest) => (.str x, rest)
  | _ =>
    match readWord? s with
    | some found => .ok found
    | none => readNumber s

mutual

/-- Reads a value, with room for so many lists and objects inside each
other. -/
def readValue : Nat → Nat → List Char → Reading Json
  | _, 0, s => failAt .expectingValue s
  | room, fuel + 1, s =>
    match s with
    | '[' :: rest =>
      match room with
      | 0 => failAt (.tooDeep "array") s
      | room + 1 =>
        match skipBlanks rest with
        | ']' :: rest => .ok (.arr [], rest)
        | rest => (readItems room fuel rest).map fun (items, rest) => (.arr items, rest)
    | '\x7b' :: rest =>
      match room with
      | 0 => failAt (.tooDeep "object") s
      | room + 1 =>
        match skipBlanks rest with
        | '\x7d' :: rest => .ok (.obj [], rest)
        | rest =>
          (readMembers room fuel [] rest).map fun (members, rest) => (.obj members, rest)
    | _ => readSimple s

/-- Reads the items of a list and its closing bracket. -/
def readItems : Nat → Nat → List Char → Except ReadError (List Json × List Char)
  | _, 0, s => failAt .expectingValue s
  | room, fuel + 1, s => do
    let (item, rest) ← readValue room fuel s
    match skipBlanks rest with
    | ']' :: rest => .ok ([item], rest)
    | ',' :: rest =>
      (readItems room fuel (skipBlanks rest)).map fun (items, rest) => (item :: items, rest)
    | rest => failAt .expectingComma rest

/-- Reads the members of an object, after the ones already read, and its
closing brace. -/
def readMembers : Nat → Nat → List (Text.Letters × Json) → List Char →
    Except ReadError (List (Text.Letters × Json) × List Char)
  | _, 0, _, s => failAt .expectingName s
  | room, fuel + 1, members, s =>
    match s with
    | '\x22' :: rest => do
      let (name, rest) ← readString rest
      match skipBlanks rest with
      | ':' :: rest =>
        let (value, rest) ← readValue room fuel (skipBlanks rest)
        let members := setMember name value members
        match skipBlanks rest with
        | '\x7d' :: rest => .ok (members, rest)
        | ',' :: rest => readMembers room fuel members (skipBlanks rest)
        | rest => failAt .expectingComma rest
      | rest => failAt .expectingColon rest
    | _ => failAt .expectingName s

end

/-- The fuel for a text. -/
def fuelFor (s : List Char) : Nat :=
  2 * s.length + 2

/-- **Reads a text as one JSON value**, with room for so many lists and
objects inside each other. -/
def readWithin (room : Nat) (s : List Char) : Except ReadError Json :=
  match s with
  | '\ufeff' :: _ => .error ⟨.byteOrderMark, s.length⟩
  | _ => do
    let (value, rest) ← readValue room (fuelFor s) (skipBlanks s)
    match skipBlanks rest with
    | [] => .ok value
    | rest => .error ⟨.extraData, rest.length⟩

/-- **Reads a text as one JSON value**, however deep it nests. -/
def read (s : List Char) : Except ReadError Json :=
  readWithin (fuelFor s) s

end Json

end Reckon
