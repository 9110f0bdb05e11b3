import Mathlib
import Reckon.Text.Utf8

/-!
# Encoded text read back

The bytes of a string are read as it (`Text.ofUtf8_toUTF8`). A character is
written in one to four bytes, by the number of bits that its code point needs,
and with any bytes behind them the reader takes just these and gives the
character (`Text.reads_utf8EncodeChar`). That no code point is written longer
than it need be, and none is that of half a character, is what keeps the second
byte within the limits that the first one sets.
-/

namespace Reckon.Text

/-! ## Bytes that follow -/

/-- No byte follows one that stands alone. -/
theorem continuation_zero (least greatest : Nat) (bytes : List UInt8) :
    continuation 0 least greatest bytes = [] := by
  cases bytes <;> rfl

theorem toNat_ofNat_of_lt {n : Nat} (h : n < 256) : (UInt8.ofNat n).toNat = n :=
  UInt8.toNat_ofNat_of_lt' h

/-- The byte of the last six bits of a number. -/
def tail (n : Nat) : UInt8 :=
  UInt8.ofNat (n % 64 + 128)

theorem toNat_tail (n : Nat) : (tail n).toNat = n % 64 + 128 :=
  toNat_ofNat_of_lt (by omega)

/-- A byte within its limits follows. -/
theorem continuation_tail {n k least greatest : Nat} (hleast : least ≤ n % 64 + 128)
    (hgreatest : n % 64 + 128 ≤ greatest) (bytes : List UInt8) :
    continuation (k + 1) least greatest (tail n :: bytes)
      = (n % 64 + 128) :: continuation k 0x80 0xbf bytes := by
  rw [continuation, toNat_tail, decide_eq_true hleast, decide_eq_true hgreatest]
  rfl

/-- Behind the second byte of a sequence all bytes have the same limits. -/
theorem continuation_next (n k : Nat) (bytes : List UInt8) :
    continuation (k + 1) 0x80 0xbf (tail n :: bytes)
      = (n % 64 + 128) :: continuation k 0x80 0xbf bytes :=
  continuation_tail (by omega) (by omega) bytes

/-! ## Sequences -/

/-- **Bytes are read as a code point**, whatever is behind them. -/
def Reads (bytes : List UInt8) (code : Nat) : Prop :=
  ∀ position rest, ∃ next, utf8From position (bytes ++ rest)
    = (utf8From next rest).map (Char.ofNat code :: ·)

/-- The code point of a sequence. -/
def codeOf (bits : Nat) (following : List Nat) : Nat :=
  following.foldl (fun n x => 64 * n + (x - 0x80)) bits

/-- **A complete sequence is read whole.** -/
theorem reads_of_lead (lead : Utf8Lead) (following : List Nat) {first code : Nat}
    {bytes : List UInt8} (hfirst : first < 256) (hlead : Utf8Lead.of? first = some lead)
    (hbytes : ∀ rest, continuation lead.following lead.least lead.greatest (bytes ++ rest)
      = following)
    (hfollowing : following.length = lead.following) (hlength : bytes.length = lead.following)
    (hcode : codeOf lead.bits following = code) :
    Reads (UInt8.ofNat first :: bytes) code := by
  intro position rest
  refine ⟨position + 1 + following.length, ?_⟩
  rw [List.cons_append, utf8From, toNat_ofNat_of_lt hfirst, hlead, ← hcode]
  dsimp only
  rw [hbytes, if_pos hfollowing, List.drop_left' (hlength.trans hfollowing.symm)]
  rfl

variable {n : Nat}

theorem reads_one (h : n ≤ 127) : Reads [UInt8.ofNat n] n := by
  refine reads_of_lead ⟨n, 0, 0x80, 0xbf⟩ [] (by omega) ?_ (continuation_zero _ _)
    rfl rfl rfl
  rw [Utf8Lead.of?, if_pos (by omega)]

theorem reads_two (hlow : 127 < n) (hhigh : n ≤ 2047) :
    Reads [UInt8.ofNat (n / 64 % 32 + 192), tail n] n := by
  generalize hfirst : n / 64 % 32 + 192 = first
  refine reads_of_lead ⟨first - 0xc0, 1, 0x80, 0xbf⟩ [n % 64 + 128] (by omega) ?_
    (fun rest => ?_) rfl rfl ?_
  · rw [Utf8Lead.of?, if_neg (by omega), if_neg (by omega), if_pos (by omega)]
  · exact (continuation_next n 0 rest).trans (congrArg _ (continuation_zero _ _ rest))
  · show 64 * (first - 0xc0) + (n % 64 + 128 - 0x80) = n
    omega

theorem reads_three (hlow : 2047 < n) (hhigh : n ≤ 65535) (hhalf : n < 0xd800 ∨ 0xdfff < n) :
    Reads [UInt8.ofNat (n / 4096 % 16 + 224), tail (n / 64), tail n] n := by
  generalize hfirst : n / 4096 % 16 + 224 = first
  refine reads_of_lead ⟨first - 0xe0, 2, if first = 0xe0 then 0xa0 else 0x80,
    if first = 0xed then 0x9f else 0xbf⟩ [n / 64 % 64 + 128, n % 64 + 128]
    (by omega) ?_ (fun rest => ?_) rfl rfl ?_
  · rw [Utf8Lead.of?, if_neg (by omega), if_neg (by omega), if_neg (by omega), if_pos (by omega)]
  · refine (continuation_tail (n := n / 64) (k := 1) ?_ ?_ _).trans (congrArg _ ?_)
    · dsimp only
      split <;> omega
    · dsimp only
      split <;> omega
    · exact (continuation_next n 0 rest).trans (congrArg _ (continuation_zero _ _ rest))
  · show 64 * (64 * (first - 0xe0) + (n / 64 % 64 + 128 - 0x80)) + (n % 64 + 128 - 0x80) = n
    omega

theorem reads_four (hlow : 65535 < n) (hhigh : n < 0x110000) :
    Reads [UInt8.ofNat (n / 262144 % 8 + 240), tail (n / 4096), tail (n / 64), tail n] n := by
  generalize hfirst : n / 262144 % 8 + 240 = first
  refine reads_of_lead ⟨first - 0xf0, 3, if first = 0xf0 then 0x90 else 0x80,
    if first = 0xf4 then 0x8f else 0xbf⟩ [n / 4096 % 64 + 128, n / 64 % 64 + 128, n % 64 + 128]
    (by omega) ?_ (fun rest => ?_) rfl rfl ?_
  · rw [Utf8Lead.of?, if_neg (by omega), if_neg (by omega), if_neg (by omega), if_neg (by omega),
      if_pos (by omega)]
  · refine (continuation_tail (n := n / 4096) (k := 2) ?_ ?_ _).trans (congrArg _ ?_)
    · dsimp only
      split <;> omega
    · dsimp only
      split <;> omega
    · refine (continuation_next (n / 64) 1 _).trans (congrArg _ ?_)
      exact (continuation_next n 0 rest).trans (congrArg _ (continuation_zero _ _ rest))
  · show 64 * (64 * (64 * (first - 0xf0) + (n / 4096 % 64 + 128 - 0x80))
      + (n / 64 % 64 + 128 - 0x80)) + (n % 64 + 128 - 0x80) = n
    omega

/-! ## Characters and strings -/

/-- **The bytes of a character are read as its code point.** -/
theorem reads_utf8EncodeChar (c : Char) : Reads (String.utf8EncodeChar c) c.toNat := by
  have hcode : c.toNat < 0xd800 ∨ 0xdfff < c.toNat ∧ c.toNat < 0x110000 := c.valid
  have hval : c.val.toNat = c.toNat := rfl
  show Reads (if c.toNat ≤ 127 then _ else _) _
  split_ifs with hone htwo hthree
  · exact reads_one hone
  · exact reads_two (by omega) htwo
  · exact reads_three (by omega) hthree (by omega)
  · exact reads_four (by omega) (by omega)

theorem utf8From_flatMap (s : List Char) (position : Nat) :
    utf8From position (s.flatMap String.utf8EncodeChar) = .ok s := by
  induction s generalizing position with
  | nil => rw [List.flatMap_nil, utf8From]
  | cons c s ih =>
    obtain ⟨next, hread⟩ := reads_utf8EncodeChar c position (s.flatMap String.utf8EncodeChar)
    rw [List.flatMap_cons, hread, ih, Char.ofNat_toNat]
    rfl

theorem toList_loop (bytes : ByteArray) (i : Nat) (r : List UInt8) :
    ByteArray.toList.loop bytes i r = r.reverse ++ bytes.data.toList.drop i := by
  have hsize : bytes.data.toList.length = bytes.size := Array.length_toList
  fun_induction ByteArray.toList.loop bytes i r with
  | case1 i r h ih =>
    have hi : i < bytes.data.toList.length := hsize ▸ h
    have hget : bytes.get! i = bytes.data.toList[i] := by
      show bytes.data[i]! = _
      rw [getElem!_pos bytes.data i h, Array.getElem_toList]
    rw [ih, hget, List.reverse_cons, List.append_assoc, List.drop_eq_getElem_cons hi]
    rfl
  | case2 i r h => rw [List.drop_eq_nil_of_le (by omega), List.append_nil]

/-- The bytes of an array as a list. -/
theorem toList_byteArray (bytes : ByteArray) : bytes.toList = bytes.data.toList :=
  toList_loop bytes 0 []

/-- **The bytes of a string are read as it.** -/
theorem ofUtf8_toUTF8 (s : String) : ofUtf8 s.toUTF8.toList = .ok s := by
  have hbytes : s.toUTF8.toList = s.toList.flatMap String.utf8EncodeChar := by
    rw [toList_byteArray, String.toUTF8_eq_toByteArray, ← String.utf8Encode_toList]
    exact List.toList_data_toByteArray
  rw [ofUtf8, hbytes, utf8From_flatMap]
  exact congrArg Except.ok String.ofList_toList

end Reckon.Text
