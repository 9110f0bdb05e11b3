/-!
# Letters

A text that comes in 16-bit units may have half of a character without
the other half. A letter is a character or such a half, so that whatever
units come, they are a text.

A string is a text without halves, and it is got back from its letters.
-/

namespace Reckon.Text

/-- **A letter.** -/
inductive Letter where
  | whole (c : Char)
  /-- The first half of a character that needs more than 16 bits. -/
  | first (k : Fin 0x400)
  /-- The second half of one. -/
  | second (k : Fin 0x400)
deriving Repr, DecidableEq

/-- A text that may have halves of characters. -/
abbrev Letters : Type := List Letter

namespace Letter

/-- **The letter of a 16-bit unit.** -/
def ofUnit (n : Nat) : Letter :=
  if h : 0xd800 ≤ n ∧ n < 0xdc00 then .first ⟨n - 0xd800, by omega⟩
  else if h : 0xdc00 ≤ n ∧ n < 0xe000 then .second ⟨n - 0xdc00, by omega⟩
  else .whole (Char.ofNat n)

/-- The character that a first and a second half make. -/
def join (a b : Fin 0x400) : Char :=
  Char.ofNat (0x10000 + 0x400 * a + b)

/-- The code point of a character, or the unit of a half. -/
def code : Letter → Nat
  | whole c => c.toNat
  | first k => 0xd800 + k
  | second k => 0xdc00 + k

/-- The letter as a character. A half is shown as the replacement
character. -/
def char : Letter → Char
  | whole c => c
  | _ => '\ufffd'

end Letter

namespace Letters

/-- The letters of a string. -/
def ofString (s : String) : Letters :=
  s.toList.map .whole

/-- The letters as a string, with the replacement character for each
half. -/
def text (s : Letters) : String :=
  String.ofList (s.map Letter.char)

/-- The string that letters were taken from. -/
theorem text_ofString (s : String) : (ofString s).text = s := by
  unfold text ofString
  rw [List.map_map]
  have h : Letter.char ∘ Letter.whole = id := rfl
  rw [h, List.map_id, String.ofList_toList]

end Letters

instance : Coe String Letters := ⟨Letters.ofString⟩

end Reckon.Text
