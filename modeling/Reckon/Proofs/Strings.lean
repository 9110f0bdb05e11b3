import Mathlib
import Reckon.Json.Reader
import Reckon.Json.Writer

/-!
# Written strings read back

A string is written in ASCII. A character that is not left as it is becomes an
escape, of one letter, of one unit, or of two units that are the halves of it.
Reading takes the characters one by one, whatever way they were written
(`Json.readLetters_escapeChar`), up to the quote that is not escaped
(`Json.readString_ofString`).

A unit is read only with something behind it, for the string around it has
still to be closed. Behind the last character there is the closing quote.
-/

namespace Reckon

/-! ## Hexadecimal digits -/

namespace Text

theorem hexValue?_digitChar {n : Nat} (h : n < 16) : hexValue? (Nat.digitChar n) = some n := by
  interval_cases n <;> rfl

theorem ofHexDigits?_append_singleton (ds : List Char) (c : Char) :
    ofHexDigits? (ds ++ [c])
      = (ofHexDigits? ds).bind fun n => (hexValue? c).map (16 * n + ·) := by
  unfold ofHexDigits?
  rw [List.foldlM_append]
  simp only [List.foldlM_cons, List.foldlM_nil, Option.bind_eq_bind, Option.pure_def,
    Option.bind_fun_some]

/-- **A number reads back from its hexadecimal digits.** -/
theorem ofHexDigits?_toDigits (n : Nat) : ofHexDigits? (Nat.toDigits 16 n) = some n := by
  induction n using Nat.strongRecOn with
  | ind n ih =>
    rw [Nat.toDigits_eq_if (by decide)]
    by_cases h : n < 16
    · rw [if_pos h, ← List.nil_append [_], ofHexDigits?_append_singleton, hexValue?_digitChar h]
      show some (16 * 0 + n) = some n
      rw [Nat.mul_zero, Nat.zero_add]
    · rw [if_neg h, ofHexDigits?_append_singleton, ih (n / 16) (by omega),
        hexValue?_digitChar (Nat.mod_lt n (by decide))]
      show some (16 * (n / 16) + n % 16) = some n
      rw [Nat.div_add_mod]

theorem ofHexDigits?_hexDigits (width n : Nat) : ofHexDigits? (hexDigits width n) = some n := by
  have hzeros (k : Nat) : (List.replicate k '0').foldlM
      (fun n c => (hexValue? c).map (16 * n + ·)) 0 = some 0 := by
    induction k with
    | zero => rfl
    | succ k ih => exact ih
  have hdigits := ofHexDigits?_toDigits n
  rw [ofHexDigits?] at hdigits
  rw [ofHexDigits?, hexDigits, List.foldlM_append, hzeros]
  exact hdigits

theorem length_hexDigits {width n : Nat} (hwidth : 0 < width) (h : n < 16 ^ width) :
    (hexDigits width n).length = width := by
  have hle := (Nat.length_toDigits_le_iff (b := 16) (by decide) hwidth).mpr h
  rw [hexDigits, List.length_append, List.length_replicate]
  omega

/-! ## Units -/

namespace Letter

/-- A code point is not among those of the halves. -/
theorem toNat_cases (c : Char) : c.toNat < 0xd800 ∨ 0xdfff < c.toNat ∧ c.toNat < 0x110000 :=
  c.valid

/-- The unit of a character of 16 bits. -/
theorem ofUnit_toNat {c : Char} : ofUnit c.toNat = .whole c := by
  have hcode := toNat_cases c
  rw [ofUnit, dif_neg (by omega), dif_neg (by omega), Char.ofNat_toNat]

theorem ofUnit_first {k : Nat} (h : k < 0x400) : ofUnit (0xd800 + k) = .first ⟨k, h⟩ := by
  rw [ofUnit, dif_pos (by omega)]
  exact congrArg Letter.first (Fin.ext (Nat.add_sub_cancel_left _ _))

theorem ofUnit_second {k : Nat} (h : k < 0x400) : ofUnit (0xdc00 + k) = .second ⟨k, h⟩ := by
  rw [ofUnit, dif_neg (by omega), dif_pos (by omega)]
  exact congrArg Letter.second (Fin.ext (Nat.add_sub_cancel_left _ _))

end Letter

end Text

namespace Json

open Text (Letter Letters)

variable {rest : List Char}

/-- A unit is read where something follows. -/
theorem readUnit?_hexDigits {n : Nat} (h : n < 0x10000) (hrest : rest ≠ []) :
    readUnit? (Text.hexDigits 4 n ++ rest) = some (.ofUnit n, rest) := by
  have hlength : (Text.hexDigits 4 n).length = 4 := Text.length_hexDigits (by decide) h
  obtain ⟨c, t, rfl⟩ := List.exists_cons_of_ne_nil hrest
  rw [readUnit?, List.drop_left' hlength, List.take_left' hlength, Text.ofHexDigits?_hexDigits]
  rfl

theorem readEscaped?_of_whole {s : List Char} {c : Char}
    (h : readUnit? s = some (.whole c, rest)) : readEscaped? s = some (.whole c, rest) := by
  rw [readEscaped?, h]
  rfl

theorem readEscaped?_of_halves {s more : List Char} {a b : Fin 0x400}
    (ha : readUnit? s = some (.first a, '\\' :: 'u' :: more))
    (hb : readUnit? more = some (.second b, rest)) :
    readEscaped? s = some (.whole (Letter.join a b), rest) := by
  rw [readEscaped?, ha]
  simp only [Option.bind_eq_bind, Option.bind_some, hb]

/-- **The escapes of a character are read as it.** -/
theorem readEscaped?_escapeCode (c : Char) (hrest : rest ≠ []) :
    ∃ units, escapeCode c.toNat = '\\' :: 'u' :: units
      ∧ readEscaped? (units ++ rest) = some (.whole c, rest) := by
  have hcode := Letter.toNat_cases c
  by_cases h : c.toNat < 0x10000
  · refine ⟨Text.hexDigits 4 c.toNat, by rw [escapeCode, if_pos h, escapeUnit], ?_⟩
    refine readEscaped?_of_whole ?_
    rw [readUnit?_hexDigits h hrest, Letter.ofUnit_toNat]
  · obtain ⟨k, hk⟩ := Nat.exists_eq_add_of_le (Nat.not_lt.mp h)
    have hfirst : k / 0x400 < 0x400 := by omega
    have hsecond : k % 0x400 < 0x400 := by omega
    refine ⟨Text.hexDigits 4 (0xd800 + k / 0x400) ++ escapeUnit (0xdc00 + k % 0x400), ?_, ?_⟩
    · rw [escapeCode, if_neg h, hk, Nat.add_sub_cancel_left]
      rfl
    · have hjoin : Letter.join ⟨k / 0x400, hfirst⟩ ⟨k % 0x400, hsecond⟩ = c := by
        rw [← Char.ofNat_toNat c, hk]
        refine congrArg Char.ofNat ?_
        show 0x10000 + 0x400 * (k / 0x400) + k % 0x400 = _
        omega
      rw [← hjoin, List.append_assoc]
      have hsecondRead : readUnit? (Text.hexDigits 4 (0xdc00 + k % 0x400) ++ rest)
          = some (.second ⟨k % 0x400, hsecond⟩, rest) := by
        rw [readUnit?_hexDigits (by omega) hrest, Letter.ofUnit_second hsecond]
      refine readEscaped?_of_halves ?_ hsecondRead
      rw [← Letter.ofUnit_first hfirst]
      exact readUnit?_hexDigits (by omega) (List.cons_ne_nil _ _)

/-! ## Letters -/

/-- A character that is left as it is. -/
theorem readLetters_plain (start fuel : Nat) {c : Char}
    (hquote : (c == Text.doubleQuote || c == '\\') = false) (hcontrol : 0x20 ≤ c.toNat) :
    readLetters start (fuel + 1) (c :: rest)
      = (readLetters start fuel rest).map fun (xs, rest) => (.whole c :: xs, rest) := by
  obtain ⟨h, h'⟩ := Bool.or_eq_false_iff.mp hquote
  rw [readLetters.eq_def]
  dsimp only
  rw [h, h', if_neg Bool.false_ne_true, if_neg Bool.false_ne_true,
    if_neg (Nat.not_lt.mpr hcontrol)]

/-- A character that is escaped by one letter. -/
theorem readLetters_unescape (start fuel : Nat) {c e : Char} (hu : e ≠ 'u')
    (h : unescape? e = some c) :
    readLetters start (fuel + 1) ('\\' :: e :: rest)
      = (readLetters start fuel rest).map fun (xs, rest) => (.whole c :: xs, rest) := by
  rw [readLetters.eq_def]
  dsimp only
  rw [if_neg (by decide), if_pos (by decide)]
  split
  · rename_i heq
    exact absurd heq (List.cons_ne_nil _ _)
  · rename_i heq
    exact absurd (List.cons.inj heq).1 hu
  · rename_i heq
    obtain ⟨rfl, rfl⟩ := List.cons.inj heq
    rw [h]

/-- A character that is escaped by its units. -/
theorem readLetters_units (start fuel : Nat) {units : List Char} {c : Char}
    (h : readEscaped? (units ++ rest) = some (.whole c, rest)) :
    readLetters start (fuel + 1) ('\\' :: 'u' :: units ++ rest)
      = (readLetters start fuel rest).map fun (xs, rest) => (.whole c :: xs, rest) := by
  rw [List.cons_append, List.cons_append, readLetters.eq_def]
  dsimp only
  rw [if_neg (by decide), if_pos (by decide)]
  split
  · rename_i heq
    exact absurd heq (List.cons_ne_nil _ _)
  · rename_i heq
    obtain rfl := (List.cons.inj heq).2
    rw [h]
  · rename_i hu heq
    exact absurd (List.cons.inj heq).1.symm fun he => hu he

/-- **A character is read back** from whatever it is written as. -/
theorem readLetters_escapeChar (start fuel : Nat) (c : Char) (hrest : rest ≠ []) :
    readLetters start (fuel + 1) (escapeChar c ++ rest)
      = (readLetters start fuel rest).map fun (xs, rest) => (.whole c :: xs, rest) := by
  have hletter {x e : Char} (h : (c == x) = true) (he : e ≠ 'u') (hx : unescape? e = some x) :
      readLetters start (fuel + 1) ('\\' :: e :: rest)
        = (readLetters start fuel rest).map fun (xs, rest) => (.whole c :: xs, rest) :=
    readLetters_unescape start fuel he (beq_iff_eq.mp h ▸ hx)
  unfold escapeChar
  split_ifs with hquote hn hr ht hb hf hplain
  · rcases Bool.or_eq_true_iff.mp hquote with h | h
    · obtain rfl := beq_iff_eq.mp h
      exact readLetters_unescape start fuel (by decide) rfl
    · obtain rfl := beq_iff_eq.mp h
      exact readLetters_unescape start fuel (by decide) rfl
  · exact hletter hn (by decide) rfl
  · exact hletter hr (by decide) rfl
  · exact hletter ht (by decide) rfl
  · exact hletter hb (by decide) rfl
  · exact hletter hf (by decide) rfl
  · rw [Bool.and_eq_true, decide_eq_true_eq] at hplain
    exact readLetters_plain start fuel (Bool.eq_false_iff.mpr hquote) hplain.1
  · obtain ⟨units, hunits, hread⟩ := readEscaped?_escapeCode c hrest
    rw [hunits]
    exact readLetters_units start fuel hread

/-- **The letters of a string are read back** up to its closing quote. -/
theorem readLetters_ofString (start : Nat) (s : List Char) {fuel : Nat} (hfuel : s.length < fuel) :
    readLetters start fuel
        ((s.map Letter.whole).flatMap escapeLetter ++ Text.doubleQuote :: rest)
      = .ok (s.map .whole, rest) := by
  induction s generalizing fuel with
  | nil =>
    obtain ⟨fuel, rfl⟩ := Nat.exists_eq_add_of_lt hfuel
    rfl
  | cons c s ih =>
    obtain ⟨fuel, rfl⟩ : ∃ k, fuel = k + 1 := ⟨fuel - 1, by omega⟩
    rw [List.map_cons, List.flatMap_cons, List.append_assoc]
    refine (readLetters_escapeChar start fuel c
      (List.append_ne_nil_of_right_ne_nil _ (List.cons_ne_nil _ _))).trans ?_
    rw [ih (Nat.lt_of_succ_lt_succ hfuel)]
    rfl

theorem escapeLetter_ne_nil (x : Letter) : escapeLetter x ≠ [] := by
  cases x with
  | whole c =>
    show escapeChar c ≠ []
    unfold escapeChar escapeCode
    split_ifs <;> exact List.cons_ne_nil _ _
  | first k => exact List.cons_ne_nil _ _
  | second k => exact List.cons_ne_nil _ _

/-- **A string is read back.** -/
theorem readString_ofString (s : String) :
    readString ((Letters.ofString s).flatMap escapeLetter ++ Text.doubleQuote :: rest)
      = .ok (Letters.ofString s, rest) := by
  have hlength : s.toList.length ≤ ((Letters.ofString s).flatMap escapeLetter).length := by
    have hone : ∀ i ∈ (Letters.ofString s).map (fun x => (escapeLetter x).length), 1 ≤ i := by
      intro i hi
      obtain ⟨x, _, rfl⟩ := List.mem_map.mp hi
      exact List.length_pos_iff.mpr (escapeLetter_ne_nil x)
    have hsum := List.length_le_sum_of_one_le _ hone
    rwa [List.length_map, ← List.length_flatMap, Letters.ofString, List.length_map] at hsum
  refine readLetters_ofString _ s.toList ?_
  rw [List.length_append]
  omega

end Json

end Reckon
