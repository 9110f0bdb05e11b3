import Mathlib
import Reckon.Proofs.Spelling
import Reckon.Proofs.Strings

/-!
# Written values read back

A JSON value is read back from its text, on one line or over lines
(`Json.readWithin_write`), if it is one that a text can hold: without halves of
characters, without whole numbers that are too long to read, and without members
of the same name in one object; and if there is room for what is nested in it
(`Json.IsReadable`).

The induction is over the value, with any text behind it that does not go on with
a number (`Json.IsReadable.readsBack`). For a list or an object it is over the
parts; the reader stands before a part, and `Json.closing` is what is left of the
text behind it. The fuel of the reader need only be twice the length of what it
is going to take.
-/

namespace Reckon

namespace Text.Letters

/-- **Letters of a string**, without halves of characters. -/
def IsString (s : Letters) : Prop :=
  ∃ t : String, s = ofString t

theorem isString_ofString (s : String) : IsString (ofString s) :=
  ⟨s, rfl⟩

theorem ofString_injective : Function.Injective ofString := fun s t h => by
  rw [← text_ofString s, h, text_ofString]

end Text.Letters

namespace Json

open Text (Letters)

/-- **A value that a text can hold**, and that there is room for reading. -/
inductive IsReadable : Nat → Json → Prop where
  | null {room : Nat} : IsReadable room .null
  | bool {room : Nat} (b : Bool) : IsReadable room (.bool b)
  | int {room : Nat} {n : Int} (h : n.natAbs < 10 ^ Numeral.wholeDigitLimit) :
    IsReadable room (.int n)
  | float {room : Nat} (x : Float) : IsReadable room (.float x)
  | str {room : Nat} {s : Letters} (h : s.IsString) : IsReadable room (.str s)
  | arr {room : Nat} {items : List Json} (h : ∀ j ∈ items, IsReadable room j) :
    IsReadable (room + 1) (.arr items)
  | obj {room : Nat} {members : List (Letters × Json)} (hstring : ∀ m ∈ members, m.1.IsString)
    (hnames : (members.map Prod.fst).Nodup) (h : ∀ m ∈ members, IsReadable room m.2) :
    IsReadable (room + 1) (.obj members)

/-! ## Blanks -/

theorem skipBlanks_append {gap s : List Char} (hgap : ∀ c ∈ gap, isBlank c = true)
    (hs : ∀ c ∈ s.head?, isBlank c = false) : skipBlanks (gap ++ s) = s := by
  rw [skipBlanks, List.dropWhile_append_of_pos hgap]
  cases s with
  | nil => rfl
  | cons c s => exact List.dropWhile_cons_of_neg (Bool.eq_false_iff.mp (hs c rfl))

theorem isBlank_start {spread : Spread} {depth : Nat} :
    ∀ c ∈ spread.start depth, isBlank c = true := by
  intro c hc
  cases spread with
  | line => exact absurd hc List.not_mem_nil
  | block =>
    rcases List.mem_cons.mp hc with rfl | hc
    · rfl
    · exact List.eq_of_mem_replicate hc ▸ rfl

/-- Between two parts there is a comma and then blanks. -/
theorem exists_between (spread : Spread) (depth : Nat) :
    ∃ gap, spread.between depth = ',' :: gap ∧ ∀ c ∈ gap, isBlank c = true := by
  cases spread with
  | line => exact ⟨[' '], rfl, fun c hc => List.mem_singleton.mp hc ▸ rfl⟩
  | block => exact ⟨Spread.block.start depth, rfl, isBlank_start⟩

/-! ## How texts begin -/

/-- **A text begins with a value**, and not with a blank or a bracket that
closes. -/
def StartsValue (s : List Char) : Prop :=
  ∃ c t, s = c :: t ∧ isBlank c = false ∧ c ≠ ']' ∧ c ≠ '\x7d' ∧ c ≠ '\ufeff'

theorem StartsValue.append {s : List Char} (h : StartsValue s) (t : List Char) :
    StartsValue (s ++ t) := by
  obtain ⟨c, s, rfl, hc⟩ := h
  exact ⟨c, s ++ t, rfl, hc⟩

theorem StartsValue.not_blank {s : List Char} (h : StartsValue s) :
    ∀ c ∈ s.head?, isBlank c = false := by
  obtain ⟨c, s, rfl, hc, _⟩ := h
  intro x hx
  exact Option.some.inj hx ▸ hc

theorem startsValue_of_isDigit {c : Char} {t : List Char} (h : c.isDigit = true) :
    StartsValue (c :: t) := by
  have hne {x : Char} (hx : x.isDigit = false) : c ≠ x := by
    rintro rfl
    exact Bool.false_ne_true (hx.symm.trans h)
  refine ⟨c, t, rfl, ?_, hne rfl, hne rfl, hne (by decide)⟩
  rw [isBlank, beq_false_of_ne (hne rfl), beq_false_of_ne (hne rfl), beq_false_of_ne (hne rfl),
    beq_false_of_ne (hne rfl)]
  rfl

/-! ## Words and numbers -/

/-- Does a text begin with a digit, or with one behind a minus? -/
def startsNumber : List Char → Bool
  | c :: d :: _ => if c = '-' then d.isDigit else c.isDigit
  | [c] => c.isDigit
  | [] => false

theorem startsNumber_of_isDigit {c : Char} (h : c.isDigit = true) (t : List Char) :
    startsNumber (c :: t) = true := by
  have hne : c ≠ '-' := by
    rintro rfl
    exact absurd h (by decide)
  cases t with
  | nil => exact h
  | cons d t => exact (if_neg hne).trans h

/-- How two characters begin is how everything behind them does. -/
theorem startsNumber_of_isPrefix {w s : List Char} (h : w <+: s) (hw : 2 ≤ w.length) :
    startsNumber s = startsNumber w := by
  obtain ⟨t, rfl⟩ := h
  match w, hw with
  | _ :: _ :: _, _ => rfl

/-- No word begins like a number. -/
theorem startsNumber_words :
    ∀ w ∈ words.map Prod.fst, 2 ≤ w.length ∧ startsNumber w = false := by
  decide

/-- What begins like a number is none of the words. -/
theorem readWord?_of_startsNumber {s : List Char} (h : startsNumber s = true) :
    readWord? s = none := by
  rw [readWord?, Option.map_eq_none_iff, List.find?_eq_none]
  intro w hw hprefix
  obtain ⟨hlength, hstarts⟩ := startsNumber_words w.1 (List.mem_map_of_mem hw)
  rw [List.isPrefixOf_iff_prefix] at hprefix
  rw [← startsNumber_of_isPrefix hprefix hlength, h] at hstarts
  exact Bool.noConfusion hstarts

/-- **What begins like a number is read as one.** -/
theorem readValue_of_startsNumber {s : List Char} (h : startsNumber s = true) (room fuel : Nat) :
    readValue room (fuel + 1) s = readNumber s := by
  have hother {c : Char} {t : List Char} (hminus : c ≠ '-') (hc : c.isDigit = false)
      (heq : s = c :: t) : False := by
    subst heq
    cases t with
    | nil => exact Bool.false_ne_true (hc.symm.trans h)
    | cons d t => exact Bool.false_ne_true ((hc.symm.trans (if_neg hminus).symm).trans h)
  rw [readValue.eq_def]
  dsimp only
  split
  · exact (hother (by decide) (by decide) rfl).elim
  · exact (hother (by decide) (by decide) rfl).elim
  · rw [readSimple.eq_def]
    split
    · exact (hother (by decide) (by decide) rfl).elim
    · rw [readWord?_of_startsNumber h]

section Numbers

variable (n : Spelling) (negative : Bool)

theorem startsNumber_signed (rest : List Char) :
    startsNumber (signed negative n.text ++ rest) = true := by
  obtain ⟨c, cs, hcs⟩ := n.exists_cons
  have hdigit : c.isDigit = true := n.isDigit_whole c (hcs ▸ List.mem_cons_self)
  cases negative with
  | true =>
    show startsNumber ('-' :: (n.text ++ rest)) = true
    rw [n.text_append, hcs]
    exact hdigit
  | false =>
    show startsNumber (n.text ++ rest) = true
    rw [n.text_append, hcs]
    exact startsNumber_of_isDigit hdigit _

theorem startsValue_signed : StartsValue (signed negative n.text) := by
  obtain ⟨c, cs, hcs⟩ := n.exists_cons
  cases negative with
  | true => exact ⟨'-', n.text, rfl, by decide⟩
  | false =>
    show StartsValue n.text
    rw [Spelling.text, hcs]
    exact startsValue_of_isDigit (n.isDigit_whole c (hcs ▸ List.mem_cons_self))

end Numbers

/-! ## Values without parts -/

/-- **A text is read as a value**, whatever is behind it that does not go on with
a number. -/
structure ReadsBack (room : Nat) (text : List Char) (j : Json) : Prop where
  starts : StartsValue text
  reads : ∀ fuel rest, 2 * text.length ≤ fuel → EndsNumber rest →
    readValue room fuel (text ++ rest) = .ok (j, rest)

variable {room : Nat}

/-- A text that is read with any fuel at all. -/
theorem readsBack_of_succ {text : List Char} {j : Json} (hstart : StartsValue text)
    (h : ∀ fuel rest, EndsNumber rest →
      readValue room (fuel + 1) (text ++ rest) = .ok (j, rest)) :
    ReadsBack room text j := by
  refine ⟨hstart, fun fuel rest hfuel hrest => ?_⟩
  have hlength : 0 < text.length := by
    obtain ⟨c, t, rfl, _⟩ := hstart
    exact Nat.succ_pos _
  obtain ⟨fuel, rfl⟩ : ∃ k, fuel = k + 1 := ⟨fuel - 1, by omega⟩
  exact h fuel rest hrest

/-- Words are read back. -/
theorem readsBack_word {w : List Char} {j : Json} (h : (w, j) ∈ words) : ReadsBack room w j := by
  fin_cases h <;> exact readsBack_of_succ ⟨_, _, rfl, by decide⟩ fun fuel rest _ => rfl

/-- A number is read back if it is read back as one. -/
theorem readsBack_signed {n : Spelling} {negative : Bool} {j : Json}
    (h : ∀ rest, EndsNumber rest → readNumber (signed negative n.text ++ rest) = .ok (j, rest)) :
    ReadsBack room (signed negative n.text) j := by
  refine readsBack_of_succ (startsValue_signed n negative) fun fuel rest hrest => ?_
  rw [readValue_of_startsNumber (startsNumber_signed n negative rest), h rest hrest]

theorem readsBack_writeFloat (x : Float) : ReadsBack room (writeFloat x) (.float x) := by
  cases hx : Binary64.ofFloat x with
  | nan =>
    rw [writeFloat, hx, Binary64.eq_undefined_of_ofFloat hx]
    exact readsBack_word (List.mem_of_getElem? (i := 3) rfl)
  | infinite negative =>
    rw [writeFloat, hx, Binary64.eq_infinity_of_ofFloat hx]
    cases negative with
    | false => exact readsBack_word (List.mem_of_getElem? (i := 4) rfl)
    | true => exact readsBack_word (List.mem_of_getElem? (i := 5) rfl)
  | finite negative m e =>
    obtain ⟨n, htext, _⟩ := exists_spelling_floatText hx
    have hwrite : writeFloat x = signed negative n.text := by rw [writeFloat, hx, ← htext]
    rw [hwrite]
    refine readsBack_signed fun rest hrest => ?_
    rw [← htext, readNumber_floatText hx hrest]

theorem readsBack_toString {n : Int} (h : n.natAbs < 10 ^ Numeral.wholeDigitLimit) :
    ReadsBack room (toString n).toList (.int n) := by
  rw [toList_toString]
  refine readsBack_signed fun rest hrest => ?_
  rw [← toList_toString, readNumber_toString h hrest]

/-- A string behind its opening quote. -/
theorem readString_writeString {s : Letters} (h : s.IsString) (rest : List Char) :
    ∃ t, writeString s = Text.doubleQuote :: t ∧ readString (t ++ rest) = .ok (s, rest) := by
  obtain ⟨s, rfl⟩ := h
  refine ⟨(Letters.ofString s).flatMap escapeLetter ++ [Text.doubleQuote], rfl, ?_⟩
  rw [List.append_assoc]
  exact readString_ofString s

theorem readsBack_writeString {s : Letters} (h : s.IsString) :
    ReadsBack room (writeString s) (.str s) := by
  refine readsBack_of_succ ⟨Text.doubleQuote, _, rfl, by decide⟩ fun fuel rest _ => ?_
  obtain ⟨t, ht, hread⟩ := readString_writeString h rest
  rw [ht]
  show (readString (t ++ rest)).map _ = _
  rw [hread]
  rfl

/-! ## Parts between brackets -/

/-- What is written behind the first of the parts between brackets. -/
def closing (spread : Spread) (depth : Nat) (bracket : Char) : List (List Char) → List Char
  | [] => spread.start depth ++ [bracket]
  | part :: parts => spread.between (depth + 1) ++ (part ++ closing spread depth bracket parts)

section Parts

variable {spread : Spread} {depth : Nat}

theorem bracket_cons (opening mark : Char) (part : List Char) (parts : List (List Char)) :
    bracket spread depth opening mark (part :: parts)
      = opening :: (spread.start (depth + 1) ++ (part ++ closing spread depth mark parts)) := by
  have hparts : (spread.between (depth + 1)).intercalate (part :: parts)
      ++ (spread.start depth ++ [mark]) = part ++ closing spread depth mark parts := by
    induction parts generalizing part with
    | nil =>
      show (part ++ []) ++ _ = _
      rw [List.append_nil]
      rfl
    | cons p ps ih =>
      show (part ++ (spread.between (depth + 1)
        ++ (spread.between (depth + 1)).intercalate (p :: ps))) ++ _ = _
      rw [List.append_assoc, List.append_assoc, ih]
      rfl
  show opening :: spread.start (depth + 1) ++ (spread.between (depth + 1)).intercalate
    (part :: parts) ++ spread.start depth ++ [mark] = _
  rw [List.append_assoc, List.append_assoc, hparts]
  rfl

/-- **What closes the parts ends a number.** -/
theorem endsNumber_closing {mark : Char} (hmark : mark.isDigit = false ∧ mark ≠ '.'
    ∧ Numeral.marksExponent mark = false) (parts : List (List Char)) (rest : List Char) :
    EndsNumber (closing spread depth mark parts ++ rest) := by
  cases parts with
  | nil =>
    cases spread with
    | line => exact endsNumber_cons hmark rest
    | block => exact endsNumber_cons (by decide) _
  | cons part parts =>
    obtain ⟨gap, hgap, _⟩ := exists_between spread (depth + 1)
    rw [closing, hgap]
    exact endsNumber_cons (by decide) _

/-- Behind the last part is the bracket. -/
theorem skipBlanks_closing_nil {mark : Char} (hmark : isBlank mark = false) (rest : List Char) :
    skipBlanks (closing spread depth mark [] ++ rest) = mark :: rest := by
  rw [closing, List.append_assoc]
  refine skipBlanks_append isBlank_start fun x hx => ?_
  obtain rfl := Option.some.inj hx
  exact hmark

/-- Behind any other part is a comma, and then the next one. -/
theorem skipBlanks_closing_cons (mark : Char) {part : List Char} (parts : List (List Char))
    (hpart : StartsValue part) (rest : List Char) :
    ∃ t, skipBlanks (closing spread depth mark (part :: parts) ++ rest) = ',' :: t
      ∧ skipBlanks t = part ++ (closing spread depth mark parts ++ rest) := by
  obtain ⟨gap, hgap, hblank⟩ := exists_between spread (depth + 1)
  refine ⟨gap ++ (part ++ (closing spread depth mark parts ++ rest)), ?_, ?_⟩
  · rw [closing, hgap, List.cons_append, List.cons_append, List.append_assoc, List.append_assoc]
    exact List.dropWhile_cons_of_neg (by decide)
  · exact skipBlanks_append hblank (hpart.append _).not_blank

variable (spread depth) in
theorem length_closing_pos (mark : Char) (parts : List (List Char)) :
    0 < (closing spread depth mark parts).length := by
  cases parts with
  | nil =>
    rw [closing, List.length_append, List.length_singleton]
    exact Nat.succ_pos _
  | cons part parts =>
    obtain ⟨gap, hgap, _⟩ := exists_between spread (depth + 1)
    rw [closing, hgap]
    exact Nat.succ_pos _

variable (spread depth) in
theorem length_closing_cons (mark : Char) (part : List Char) (parts : List (List Char)) :
    (part ++ closing spread depth mark parts).length
      < (closing spread depth mark (part :: parts)).length := by
  obtain ⟨gap, hgap, _⟩ := exists_between spread (depth + 1)
  rw [closing, hgap, List.cons_append, List.length_cons, List.length_append, List.length_append,
    List.length_append]
  omega

/-- A value before other parts leaves these, and fuel for them. -/
theorem readValue_part {text : List Char} {v : Json} (h : ReadsBack room text v) {mark : Char}
    (hmark : mark.isDigit = false ∧ mark ≠ '.' ∧ Numeral.marksExponent mark = false)
    {parts : List (List Char)} {fuel : Nat}
    (hfuel : 2 * (text ++ closing spread depth mark parts).length ≤ fuel) (rest : List Char) :
    ∃ k, fuel = k + 1 ∧ 2 * (closing spread depth mark parts).length ≤ k + 1
      ∧ readValue room k (text ++ (closing spread depth mark parts ++ rest))
        = .ok (v, closing spread depth mark parts ++ rest) := by
  have hpos := length_closing_pos spread depth mark parts
  rw [List.length_append] at hfuel
  refine ⟨fuel - 1, by omega, by omega, h.reads _ _ (by omega) (endsNumber_closing hmark _ _)⟩

end Parts

/-! ## Lists -/

section Items

variable {fuel : Nat} {v : Json} {s rest t : List Char}

theorem readItems_of_bracket (hv : readValue room fuel s = .ok (v, t))
    (ht : skipBlanks t = ']' :: rest) : readItems room (fuel + 1) s = .ok ([v], rest) := by
  rw [readItems, hv]
  dsimp only [bind, Except.bind]
  rw [ht]
  rfl

theorem readItems_of_comma (hv : readValue room fuel s = .ok (v, t))
    (ht : skipBlanks t = ',' :: rest) : readItems room (fuel + 1) s
      = (readItems room fuel (skipBlanks rest)).map fun (items, rest) => (v :: items, rest) := by
  rw [readItems, hv]
  dsimp only [bind, Except.bind]
  rw [ht]
  rfl

end Items

section Parts

variable {spread : Spread} {depth : Nat}

/-- **The items of a list are read back** with the bracket that closes it. -/
theorem readItems_writeItems {v : Json} {vs : List Json}
    (h : ∀ w ∈ v :: vs, ReadsBack room (writeAt spread (depth + 1) w) w) {fuel : Nat}
    (hfuel : 2 * (writeAt spread (depth + 1) v
      ++ closing spread depth ']' (writeItems spread depth vs)).length ≤ fuel) (rest : List Char) :
    readItems room fuel (writeAt spread (depth + 1) v
        ++ (closing spread depth ']' (writeItems spread depth vs) ++ rest))
      = .ok (v :: vs, rest) := by
  induction vs generalizing v fuel with
  | nil =>
    obtain ⟨k, rfl, _, hv⟩ := readValue_part (List.forall_mem_cons.mp h).1 (by decide) hfuel rest
    exact readItems_of_bracket hv (skipBlanks_closing_nil rfl rest)
  | cons w vs ih =>
    obtain ⟨hhead, htail⟩ := List.forall_mem_cons.mp h
    obtain ⟨k, rfl, hk, hv⟩ := readValue_part hhead (by decide) hfuel rest
    obtain ⟨t, ht, hskip⟩ := skipBlanks_closing_cons ']' (writeItems spread depth vs)
      (htail w List.mem_cons_self).starts rest
    have hlength := length_closing_cons spread depth ']'
      (writeAt spread (depth + 1) w) (writeItems spread depth vs)
    rw [readItems_of_comma hv ht, hskip, ih htail (by rw [writeItems] at hk; omega)]
    rfl

end Parts

/-! ## Objects -/

theorem setMember_of_not_mem {name : Letters} {value : Json} {members : List (Letters × Json)}
    (h : name ∉ members.map Prod.fst) :
    setMember name value members = members ++ [(name, value)] := by
  induction members with
  | nil => rfl
  | cons m ms ih =>
    obtain ⟨hne, hnot⟩ := List.ne_and_not_mem_of_not_mem_cons h
    rw [setMember, beq_false_of_ne (Ne.symm hne), if_neg Bool.false_ne_true, ih hnot]
    rfl

/-- The members before one of a new name. -/
theorem setMember_of_nodup {m : Letters × Json} {ms before : List (Letters × Json)}
    (h : ((before ++ m :: ms).map Prod.fst).Nodup) :
    setMember m.1 m.2 before = before ++ [m] := by
  refine setMember_of_not_mem fun hmem => ?_
  rw [List.map_append, List.map_cons, List.nodup_append] at h
  exact h.2.2 _ hmem _ List.mem_cons_self rfl

section Members

variable {fuel : Nat} {members : List (Letters × Json)} {name : Letters} {v : Json}
  {s rest t u : List Char}

/-- A member up to what is behind its value. -/
theorem readMembers_member (hname : readString s = .ok (name, ':' :: t))
    (hv : readValue room fuel (skipBlanks t) = .ok (v, u)) :
    readMembers room (fuel + 1) members (Text.doubleQuote :: s)
      = match skipBlanks u with
        | '\x7d' :: rest => .ok (setMember name v members, rest)
        | ',' :: rest => readMembers room fuel (setMember name v members) (skipBlanks rest)
        | rest => failAt .expectingComma rest := by
  rw [readMembers.eq_def]
  show Except.bind (readString s) _ = _
  rw [hname]
  show Except.bind (readValue room fuel (skipBlanks t)) _ = _
  rw [hv]
  rfl

theorem readMembers_of_brace (hname : readString s = .ok (name, ':' :: t))
    (hv : readValue room fuel (skipBlanks t) = .ok (v, u)) (hu : skipBlanks u = '\x7d' :: rest) :
    readMembers room (fuel + 1) members (Text.doubleQuote :: s)
      = .ok (setMember name v members, rest) := by
  rw [readMembers_member hname hv, hu]
  rfl

theorem readMembers_of_comma (hname : readString s = .ok (name, ':' :: t))
    (hv : readValue room fuel (skipBlanks t) = .ok (v, u)) (hu : skipBlanks u = ',' :: rest) :
    readMembers room (fuel + 1) members (Text.doubleQuote :: s)
      = readMembers room fuel (setMember name v members) (skipBlanks rest) := by
  rw [readMembers_member hname hv, hu]
  rfl

end Members

section Parts

variable {spread : Spread} {depth : Nat}

/-- A member as it is written. -/
def memberText (spread : Spread) (depth : Nat) (m : Letters × Json) : List Char :=
  writeString m.1 ++ ':' :: ' ' :: writeAt spread (depth + 1) m.2

theorem writeMembers_cons (m : Letters × Json) (ms : List (Letters × Json)) :
    writeMembers spread depth (m :: ms)
      = memberText spread depth m :: writeMembers spread depth ms :=
  rfl

variable (spread depth) in
theorem startsValue_memberText (m : Letters × Json) : StartsValue (memberText spread depth m) :=
  ⟨Text.doubleQuote, _, rfl, by decide⟩

/-- A member is read up to its value. -/
theorem exists_memberText {m : Letters × Json} (hm : m.1.IsString)
    (hstart : StartsValue (writeAt spread (depth + 1) m.2)) (rest : List Char) :
    ∃ s t, memberText spread depth m ++ rest = Text.doubleQuote :: s
      ∧ readString s = .ok (m.1, ':' :: t)
      ∧ skipBlanks t = writeAt spread (depth + 1) m.2 ++ rest := by
  obtain ⟨s, hs, hread⟩ := readString_writeString hm
    (':' :: ' ' :: writeAt spread (depth + 1) m.2 ++ rest)
  refine ⟨s ++ (':' :: ' ' :: writeAt spread (depth + 1) m.2 ++ rest),
    ' ' :: writeAt spread (depth + 1) m.2 ++ rest, ?_, hread, ?_⟩
  · rw [memberText, hs, List.append_assoc]
    rfl
  · have hblank : ∀ c ∈ [' '], isBlank c = true := fun c hc => List.mem_singleton.mp hc ▸ rfl
    exact skipBlanks_append hblank (hstart.append rest).not_blank

/-- Fuel for a member is fuel for its value. -/
theorem length_value_le_of_memberText {m : Letters × Json} {mark : Char}
    {parts : List (List Char)} {fuel : Nat}
    (h : 2 * (memberText spread depth m ++ closing spread depth mark parts).length ≤ fuel) :
    2 * (writeAt spread (depth + 1) m.2 ++ closing spread depth mark parts).length ≤ fuel := by
  rw [memberText, List.length_append, List.length_append, List.length_cons, List.length_cons] at h
  rw [List.length_append]
  omega

/-- **The members of an object are read back** behind those already read, with the
brace that closes it. -/
theorem readMembers_writeMembers {m : Letters × Json} {ms before : List (Letters × Json)}
    (hstring : ∀ n ∈ m :: ms, n.1.IsString)
    (h : ∀ n ∈ m :: ms, ReadsBack room (writeAt spread (depth + 1) n.2) n.2)
    (hnames : ((before ++ m :: ms).map Prod.fst).Nodup) {fuel : Nat}
    (hfuel : 2 * (memberText spread depth m
      ++ closing spread depth '\x7d' (writeMembers spread depth ms)).length ≤ fuel)
    (rest : List Char) :
    readMembers room fuel before (memberText spread depth m
        ++ (closing spread depth '\x7d' (writeMembers spread depth ms) ++ rest))
      = .ok (before ++ m :: ms, rest) := by
  induction ms generalizing m before fuel with
  | nil =>
    obtain ⟨k, rfl, _, hv⟩ := readValue_part (List.forall_mem_cons.mp h).1 (by decide)
      (length_value_le_of_memberText hfuel) rest
    obtain ⟨s, t, hs, hname, ht⟩ := exists_memberText
      (List.forall_mem_cons.mp hstring).1 (List.forall_mem_cons.mp h).1.starts
      (closing spread depth '\x7d' [] ++ rest)
    rw [writeMembers, hs, readMembers_of_brace hname (ht ▸ hv) (skipBlanks_closing_nil rfl rest),
      setMember_of_nodup hnames]
  | cons n ms ih =>
    obtain ⟨hhead, htail⟩ := List.forall_mem_cons.mp h
    obtain ⟨hstring, hstrings⟩ := List.forall_mem_cons.mp hstring
    obtain ⟨k, rfl, hk, hv⟩ := readValue_part hhead (by decide)
      (length_value_le_of_memberText hfuel) rest
    obtain ⟨s, t, hs, hname, ht⟩ := exists_memberText hstring hhead.starts
      (closing spread depth '\x7d' (writeMembers spread depth (n :: ms)) ++ rest)
    obtain ⟨u, hu, hskip⟩ := skipBlanks_closing_cons '\x7d' (writeMembers spread depth ms)
      (startsValue_memberText spread depth n) rest
    have hlength := length_closing_cons spread depth '\x7d'
      (memberText spread depth n) (writeMembers spread depth ms)
    have hnames' : ((before ++ [m] ++ n :: ms).map Prod.fst).Nodup := by
      rwa [List.append_assoc]
    rw [hs, readMembers_of_comma hname (ht ▸ hv) hu, hskip, setMember_of_nodup hnames,
      ih hstrings htail hnames' (by rw [writeMembers_cons] at hk; omega), List.append_assoc]
    rfl

end Parts

/-! ## Values -/

section Brackets

variable {fuel : Nat} {s t : List Char}

theorem readValue_of_items (hs : skipBlanks s = t) (ht : StartsValue t) :
    readValue (room + 1) (fuel + 1) ('[' :: s)
      = (readItems room fuel t).map fun (items, rest) => (.arr items, rest) := by
  obtain ⟨c, t, rfl, _, hc, _⟩ := ht
  rw [readValue, hs]
  split
  · rename_i heq
    exact absurd (List.cons.inj heq).1 hc
  · rfl

theorem readValue_of_members (hs : skipBlanks s = t) (ht : StartsValue t) :
    readValue (room + 1) (fuel + 1) ('\x7b' :: s)
      = (readMembers room fuel [] t).map fun (members, rest) => (.obj members, rest) := by
  obtain ⟨c, t, rfl, _, _, hc, _⟩ := ht
  rw [readValue, hs]
  split
  · rename_i heq
    exact absurd (List.cons.inj heq).1 hc
  · rfl

end Brackets

section Parts

variable {spread : Spread} {depth : Nat}

/-- **Parts between brackets are read back** if they are read behind the first
one. -/
theorem readsBack_bracket {opening mark : Char} {part : List Char} {parts : List (List Char)}
    {j : Json} (hopening : StartsValue [opening]) (hpart : StartsValue part)
    (h : ∀ fuel s rest, 2 * (part ++ closing spread depth mark parts).length ≤ fuel →
      skipBlanks s = part ++ (closing spread depth mark parts ++ rest) →
      readValue room (fuel + 1) (opening :: s) = .ok (j, rest)) :
    ReadsBack room (bracket spread depth opening mark (part :: parts)) j := by
  rw [bracket_cons]
  refine ⟨hopening.append _, fun fuel rest hfuel _ => ?_⟩
  rw [List.length_cons, List.length_append] at hfuel
  obtain ⟨fuel, rfl⟩ : ∃ k, fuel = k + 1 := ⟨fuel - 1, by omega⟩
  rw [List.cons_append, List.append_assoc, List.append_assoc]
  refine h fuel _ rest (by omega) ?_
  exact skipBlanks_append isBlank_start (hpart.append _).not_blank

theorem readsBack_items {v : Json} {vs : List Json}
    (h : ∀ w ∈ v :: vs, ReadsBack room (writeAt spread (depth + 1) w) w) :
    ReadsBack (room + 1) (writeAt spread depth (.arr (v :: vs))) (.arr (v :: vs)) := by
  have hpart := (h v List.mem_cons_self).starts
  refine readsBack_bracket ⟨'[', [], rfl, by decide⟩ hpart fun fuel s rest hfuel hs => ?_
  rw [readValue_of_items hs (hpart.append _), readItems_writeItems h hfuel]
  rfl

theorem readsBack_members {m : Letters × Json} {ms : List (Letters × Json)}
    (hstring : ∀ n ∈ m :: ms, n.1.IsString)
    (h : ∀ n ∈ m :: ms, ReadsBack room (writeAt spread (depth + 1) n.2) n.2)
    (hnames : ((m :: ms).map Prod.fst).Nodup) :
    ReadsBack (room + 1) (writeAt spread depth (.obj (m :: ms))) (.obj (m :: ms)) := by
  have hpart := startsValue_memberText spread depth m
  show ReadsBack (room + 1) (bracket spread depth '\x7b' '\x7d'
    (memberText spread depth m :: writeMembers spread depth ms)) _
  refine readsBack_bracket ⟨'\x7b', [], rfl, by decide⟩ hpart fun fuel s rest hfuel hs => ?_
  rw [readValue_of_members hs (hpart.append _), readMembers_writeMembers hstring h hnames hfuel]
  rfl

end Parts

/-- **A value that a text can hold is read back**, whatever is behind it that does
not go on with a number. -/
theorem IsReadable.readsBack {j : Json} (h : IsReadable room j) (spread : Spread) (depth : Nat) :
    ReadsBack room (writeAt spread depth j) j := by
  induction h generalizing depth with
  | null => exact readsBack_word (List.mem_of_getElem? (i := 0) rfl)
  | bool b =>
    cases b with
    | true => exact readsBack_word (List.mem_of_getElem? (i := 1) rfl)
    | false => exact readsBack_word (List.mem_of_getElem? (i := 2) rfl)
  | int h => exact readsBack_toString h
  | float x => exact readsBack_writeFloat x
  | str h => exact readsBack_writeString h
  | @arr room items h ih =>
    cases items with
    | nil => exact readsBack_of_succ ⟨'[', _, rfl, by decide⟩ fun fuel rest _ => rfl
    | cons v vs => exact readsBack_items fun w hw => ih w hw (depth + 1)
  | @obj room members hstring hnames h ih =>
    cases members with
    | nil => exact readsBack_of_succ ⟨'\x7b', _, rfl, by decide⟩ fun fuel rest _ => rfl
    | cons m ms => exact readsBack_members hstring (fun n hn => ih n hn (depth + 1)) hnames

/-- **A value that a text can hold is read back from its text**, in either
spread. -/
theorem readWithin_write {j : Json} (h : IsReadable room j) (spread : Spread) :
    readWithin room (j.write spread).toList = .ok j := by
  have hback := h.readsBack spread 0
  have hread := hback.reads (fuelFor (writeAt spread 0 j)) [] (Nat.le_add_right _ 2)
    (fun x hx => absurd hx (Option.not_mem_none x))
  obtain ⟨c, t, htext, hblank, _, _, hmark⟩ := hback.starts
  rw [List.append_nil, htext] at hread
  have hskip : skipBlanks (c :: t) = c :: t :=
    List.dropWhile_cons_of_neg (Bool.eq_false_iff.mp hblank)
  rw [write, String.toList_ofList, htext]
  unfold readWithin
  split
  · rename_i heq
    exact absurd (List.cons.inj heq).1 hmark
  · rw [hskip, hread]
    rfl

end Json

end Reckon
