import Reckon.Text.Hex

/-!
# Reading UTF-8

A byte sequence is text if it falls into well-formed sequences of one to
four bytes. The second byte of a sequence is narrowed by the first one,
which shuts out overlong forms, surrogates and code points that are too
large. The first sequence that is not well formed is reported with the
bytes that belong to it.
-/

namespace Reckon.Text

/-- What is wrong with a sequence of bytes. -/
inductive Utf8Fault where
  /-- Its first byte starts no sequence. -/
  | start
  /-- A byte that should go on with it does not. -/
  | continuation
  /-- The input ends inside it. -/
  | ended
deriving Repr, DecidableEq

/-- **Why bytes are not text.** -/
structure Utf8Error where
  fault : Utf8Fault
  /-- Where the sequence starts. -/
  position : Nat
  /-- How many bytes belong to it. -/
  size : Nat
  /-- Its first byte. -/
  byte : Nat
deriving Repr, DecidableEq

/-- What the fault is called. -/
def Utf8Fault.label : Utf8Fault → String
  | .start => "invalid start byte"
  | .continuation => "invalid continuation byte"
  | .ended => "unexpected end of data"

/-- **What the error is reported as.** -/
def Utf8Error.message (e : Utf8Error) : String :=
  let place :=
    if e.size == 1 then
      "byte 0x" ++ String.ofList (hexDigits 2 e.byte) ++ " in position " ++ toString e.position
    else
      "bytes in position " ++ toString e.position ++ "-" ++ toString (e.position + e.size - 1)
  "'utf-8' codec can't decode " ++ place ++ ": " ++ e.fault.label

/-- How a sequence goes on after its first byte. -/
structure Utf8Lead where
  /-- The bits of the code point in the first byte. -/
  bits : Nat
  /-- How many bytes follow. -/
  following : Nat
  /-- The least second byte. -/
  least : Nat := 0x80
  /-- The greatest second byte. -/
  greatest : Nat := 0xbf

/-- The sequence that a byte starts, if it starts one. -/
def Utf8Lead.of? (b : Nat) : Option Utf8Lead :=
  if b < 0x80 then some { bits := b, following := 0 }
  else if b < 0xc2 then none
  else if b < 0xe0 then some { bits := b - 0xc0, following := 1 }
  else if b < 0xf0 then
    some {
      bits := b - 0xe0
      following := 2
      least := if b = 0xe0 then 0xa0 else 0x80
      greatest := if b = 0xed then 0x9f else 0xbf }
  else if b < 0xf5 then
    some {
      bits := b - 0xf0
      following := 3
      least := if b = 0xf0 then 0x90 else 0x80
      greatest := if b = 0xf4 then 0x8f else 0xbf }
  else none

/-- The bytes at the front that may follow a first byte. Only the second
byte of the sequence has limits of its own. -/
def continuation (following least greatest : Nat) : List UInt8 → List Nat
  | [] => []
  | b :: rest =>
    match following with
    | 0 => []
    | n + 1 =>
      if least ≤ b.toNat && b.toNat ≤ greatest then
        b.toNat :: continuation n 0x80 0xbf rest
      else []

/-- Reads the bytes from a position on. -/
def utf8From (position : Nat) (bytes : List UInt8) : Except Utf8Error (List Char) :=
  match bytes with
  | [] => .ok []
  | b :: rest =>
    match Utf8Lead.of? b.toNat with
    | none => .error ⟨.start, position, 1, b.toNat⟩
    | some lead =>
      let found := continuation lead.following lead.least lead.greatest rest
      if found.length = lead.following then
        let code := found.foldl (fun n x => 64 * n + (x - 0x80)) lead.bits
        (utf8From (position + 1 + found.length) (rest.drop found.length)).map
          (Char.ofNat code :: ·)
      else if found.length = rest.length then
        .error ⟨.ended, position, 1 + found.length, b.toNat⟩
      else .error ⟨.continuation, position, 1 + found.length, b.toNat⟩
termination_by bytes.length
decreasing_by
  simp only [List.length_drop, List.length_cons]
  omega

/-- **Reads bytes as text.** -/
def ofUtf8 (bytes : List UInt8) : Except Utf8Error String :=
  (utf8From 0 bytes).map String.ofList

end Reckon.Text
