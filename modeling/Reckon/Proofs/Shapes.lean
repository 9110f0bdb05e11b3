import Reckon.Proofs.Nearest
import Reckon.Proofs.Room
import Reckon.Proofs.Traversals
import Reckon.Proofs.Utf8
import Reckon.Report.Archive

/-!
# Report files of the wrong shape

JSON can be anything, and a report is read from it without a look at its shape
first: the reader asks for members, items and numbers, and the first value that
does not have what it is asked for is the fault of the file. The three relations
`Json.NumberFault`, `Json.CaseFault` and `Json.ReportFault` say which value that is
and what is wrong with it, and the readers fail with just these errors
(`LoadedReport.ofJson_eq_error_iff`).

So there are four ways for a file to be loaded (`LoadedReport.load_outcome`): it holds
a report if its JSON has no fault; it counts as holding none if it is not UTF-8, not
JSON, or has for its first fault a text that writes no number; with every other first
fault the loading itself fails; and it fails as well where the reader of JSON runs out
of room for the lists and objects inside each other, be the text JSON or not.
-/

namespace Reckon

namespace Json

/-! ## Faults -/

/-- **What is wrong with a value that stands for no number.** -/
inductive NumberFault : Json → NumberError → Prop
  /-- A text that writes none. -/
  | text {s : Text.Letters} (h : Numeral.readFloat? (s.map Text.Letter.char) = none) :
      NumberFault (.str s) (.notANumber s)
  /-- A whole number beyond all doubles. -/
  | large {n : Int} (h : Binary64.wholeCeiling ≤ n.natAbs) : NumberFault (.int n) .tooLarge
  | null : NumberFault .null (.wrongKind "NoneType")
  | list (items : List Json) : NumberFault (.arr items) (.wrongKind "list")
  | object (members : List (Text.Letters × Json)) : NumberFault (.obj members) (.wrongKind "dict")

/-- A member that is there and stands for no number. -/
def MemberFault (name : String) (members : List (Text.Letters × Json)) (e : NumberError) : Prop :=
  ∃ j, find? name members = some j ∧ NumberFault j e

/-- **What is first wrong with a value that is no case.** -/
inductive CaseFault : Json → ReportError → Prop
  /-- It is no object. -/
  | kind {j : Json} (h : ∀ members, j ≠ .obj members) : CaseFault j (.noMembers j.kind)
  | expected {members : List (Text.Letters × Json)} {e : NumberError}
      (h : MemberFault "expected" members e) : CaseFault (.obj members) (.number e)
  | actual {members : List (Text.Letters × Json)} {e : NumberError}
      (hexpected : ∀ e, ¬ MemberFault "expected" members e) (h : MemberFault "actual" members e) :
      CaseFault (.obj members) (.number e)

/-- Can the value be gone through? -/
def isIterable : Json → Bool
  | arr _ | obj _ | str _ => true
  | _ => false

/-- **What is first wrong with a value that is no report.** -/
inductive ReportFault : Json → ReportError → Prop
  /-- It is no object. -/
  | kind {j : Json} (h : ∀ members, j ≠ .obj members) : ReportFault j (.noMembers j.kind)
  /-- Its cases cannot be gone through. -/
  | cases {members : List (Text.Letters × Json)} {j : Json} (h : find? "cases" members = some j)
      (hkind : j.isIterable = false) : ReportFault (.obj members) (.noItems j.kind)
  /-- One of its cases is none, and those before it are. -/
  | case {members : List (Text.Letters × Json)} {before after : List Json} {j : Json}
      {e : ReportError}
      (h : ((find? "cases" members).getD (.arr [])).items = .ok (before ++ j :: after))
      (hbefore : ∀ i ∈ before, ∀ e, ¬ CaseFault i e) (hj : CaseFault j e) :
      ReportFault (.obj members) e

/-! ## The readers fail with the first fault -/

/-- **A value without a number has a fault**, and no other value has one. -/
theorem toNumber_eq_error_iff {j : Json} {e : NumberError} :
    j.toNumber = .error e ↔ NumberFault j e := by
  constructor
  · intro h
    cases j with
    | null =>
      obtain rfl := Except.error.inj h
      exact .null
    | bool _ | float _ => exact nomatch h
    | int n =>
      rw [toNumber] at h
      split at h
      · rename_i hinf
        obtain rfl := Except.error.inj h
        exact .large ((Binary64.isInf_ofInt_iff n).mp hinf)
      · exact nomatch h
    | str s =>
      rw [toNumber] at h
      split at h
      · exact nomatch h
      · rename_i hread
        obtain rfl := Except.error.inj h
        exact .text hread
    | arr items =>
      obtain rfl := Except.error.inj h
      exact .list items
    | obj members =>
      obtain rfl := Except.error.inj h
      exact .object members
  · rintro (hread | hlarge | _ | _ | _)
    · rw [toNumber, hread]
    · exact if_pos ((Binary64.isInf_ofInt_iff _).mpr hlarge)
    · rfl
    · rfl
    · rfl

theorem members_eq_error_iff {j : Json} {e : ReportError} :
    j.members = .error e ↔ (∀ members, j ≠ .obj members) ∧ e = .noMembers j.kind := by
  cases j with
  | obj members => exact iff_of_false nofun fun h => h.1 members rfl
  | null | bool _ | int _ | float _ | str _ | arr _ =>
    exact ⟨fun h => ⟨nofun, (Except.error.inj h).symm⟩, fun h => congrArg Except.error h.2.symm⟩

theorem members_eq_ok_iff {j : Json} {members : List (Text.Letters × Json)} :
    j.members = .ok members ↔ j = .obj members := by
  cases j with
  | obj ms => exact ⟨fun h => congrArg obj (Except.ok.inj h), fun h => congrArg Except.ok (obj.inj h)⟩
  | null | bool _ | int _ | float _ | str _ | arr _ => exact iff_of_false nofun nofun

theorem items_eq_error_iff {j : Json} {e : ReportError} :
    j.items = .error e ↔ j.isIterable = false ∧ e = .noItems j.kind := by
  cases j with
  | arr _ | obj _ | str _ => exact iff_of_false nofun nofun
  | null | bool _ | int _ | float _ =>
    exact ⟨fun h => ⟨rfl, (Except.error.inj h).symm⟩, fun h => congrArg Except.error h.2.symm⟩

end Json

open Json

theorem readNumberMember_eq_error_iff {name : String} {members : List (Text.Letters × Json)}
    {e : ReportError} :
    readNumberMember name members = .error e ↔ ∃ f, MemberFault name members f ∧ e = .number f := by
  rw [readNumberMember]
  cases hfind : find? name members with
  | none => exact iff_of_false nofun fun ⟨_, ⟨_, h, _⟩, _⟩ => nomatch hfind.symm.trans h
  | some j =>
    have hfault (f : NumberError) : MemberFault name members f ↔ j.toNumber = .error f := by
      rw [toNumber_eq_error_iff]
      refine ⟨fun ⟨i, hi, h⟩ => ?_, fun h => ⟨j, hfind, h⟩⟩
      rwa [← Option.some.inj (hfind.symm.trans hi)] at h
    simp only [hfault]
    cases j.toNumber with
    | ok x => exact iff_of_false nofun nofun
    | error f =>
      refine ⟨fun h => ⟨f, rfl, (Except.error.inj h).symm⟩, fun ⟨f', hf, he⟩ => ?_⟩
      rw [he, ← Except.error.inj hf]
      rfl

/-- **A case is read unless it has a fault.** -/
theorem LoadedCase.ofJson_eq_error_iff {j : Json} {e : ReportError} :
    LoadedCase.ofJson j = .error e ↔ j.CaseFault e := by
  rw [LoadedCase.ofJson, bind_eq_error_iff, members_eq_error_iff]
  simp only [members_eq_ok_iff, bind_eq_error_iff, readNumberMember_eq_error_iff]
  constructor
  · rintro (⟨hkind, rfl⟩ | ⟨members, rfl, ⟨f, hf, rfl⟩ | ⟨x, hx, ⟨f, hf, rfl⟩ | ⟨_, _, h⟩⟩⟩)
    · exact .kind hkind
    · exact .expected hf
    · refine .actual (fun f' hf' => ?_) hf
      exact nomatch hx.symm.trans (readNumberMember_eq_error_iff.mpr ⟨f', hf', rfl⟩)
    · exact nomatch h
  · rintro (hkind | hf | ⟨hexpected, hf⟩)
    · exact .inl ⟨hkind, rfl⟩
    · exact .inr ⟨_, rfl, .inl ⟨_, hf, rfl⟩⟩
    · obtain ⟨x, hx⟩ := exists_eq_ok_iff.mpr fun e he => by
        obtain ⟨f, hf, _⟩ := readNumberMember_eq_error_iff.mp he
        exact hexpected f hf
      exact .inr ⟨_, rfl, .inr ⟨x, hx, .inl ⟨_, hf, rfl⟩⟩⟩

theorem LoadedCase.exists_ofJson_eq_ok_iff {j : Json} :
    (∃ c, LoadedCase.ofJson j = .ok c) ↔ ∀ e, ¬ j.CaseFault e := by
  simp only [← LoadedCase.ofJson_eq_error_iff]
  exact exists_eq_ok_iff

/-- **A report is read unless it has a fault**, and the first one is the error. -/
theorem LoadedReport.ofJson_eq_error_iff {j : Json} {e : ReportError} :
    LoadedReport.ofJson j = .error e ↔ j.ReportFault e := by
  rw [LoadedReport.ofJson, bind_eq_error_iff, members_eq_error_iff]
  simp only [members_eq_ok_iff, bind_eq_error_iff, items_eq_error_iff, mapM_eq_error_iff,
    LoadedCase.ofJson_eq_error_iff, LoadedCase.exists_ofJson_eq_ok_iff]
  constructor
  · rintro (⟨hkind, rfl⟩ | ⟨members, rfl, ⟨hkind, rfl⟩ |
      ⟨_, hitems, ⟨before, i, after, rfl, hbefore, hi⟩ | ⟨_, _, h⟩⟩⟩)
    · exact .kind hkind
    · cases hfind : find? "cases" members with
      | none =>
        rw [hfind] at hkind
        exact nomatch hkind
      | some i =>
        rw [hfind] at hkind
        exact .cases hfind hkind
    · exact .case hitems hbefore hi
    · exact nomatch h
  · rintro (hkind | ⟨hfind, hkind⟩ | ⟨hitems, hbefore, hi⟩)
    · exact .inl ⟨hkind, rfl⟩
    · refine .inr ⟨_, rfl, .inl ?_⟩
      rw [hfind]
      exact ⟨hkind, rfl⟩
    · exact .inr ⟨_, rfl, .inr ⟨_, hitems, .inl ⟨_, _, _, rfl, hbefore, hi⟩⟩⟩

theorem LoadedReport.exists_ofJson_eq_ok_iff {j : Json} :
    (∃ r, LoadedReport.ofJson j = .ok r) ↔ ∀ e, ¬ j.ReportFault e := by
  simp only [← LoadedReport.ofJson_eq_error_iff]
  exact exists_eq_ok_iff

/-! ## Files -/

section Files

variable {room : Nat} {bytes : List UInt8} {j : Json}

/-- **The JSON in the bytes of a file**, if there is room for reading it. -/
def HoldsJson (room : Nat) (bytes : List UInt8) (j : Json) : Prop :=
  ∃ text, Text.ofUtf8 bytes = .ok text ∧ Json.readWithin room text.toList = .ok j

/-- **The bytes of a file for which the room is too small**, with the error where it
ends. -/
def Overflows (room : Nat) (bytes : List UInt8) (e : Json.ReadError) : Prop :=
  ∃ text, Text.ofUtf8 bytes = .ok text ∧ Json.readWithin room text.toList = .error e
    ∧ e.fault.isRoom = true

/-- A file holds one value. -/
theorem HoldsJson.exists_iff (hj : HoldsJson room bytes j) {p : Json → Prop} :
    (∃ i, HoldsJson room bytes i ∧ p i) ↔ p j := by
  refine ⟨fun ⟨i, ⟨text, htext, hread⟩, hi⟩ => ?_, fun h => ⟨j, hj, h⟩⟩
  obtain ⟨text', htext', hread'⟩ := hj
  obtain rfl := Except.ok.inj (htext.symm.trans htext')
  obtain rfl := Except.ok.inj (hread.symm.trans hread')
  exact hi

theorem HoldsJson.not_overflows (hj : HoldsJson room bytes j) (e : Json.ReadError) :
    ¬ Overflows room bytes e := by
  rintro ⟨text, htext, hread, -⟩
  obtain ⟨text', htext', hread'⟩ := hj
  obtain rfl := Except.ok.inj (htext.symm.trans htext')
  exact nomatch hread.symm.trans hread'

theorem Overflows.eq {e e' : Json.ReadError} (h : Overflows room bytes e)
    (h' : Overflows room bytes e') : e = e' := by
  obtain ⟨text, htext, hread, -⟩ := h
  obtain ⟨text', htext', hread', -⟩ := h'
  obtain rfl := Except.ok.inj (htext.symm.trans htext')
  exact Except.error.inj (hread.symm.trans hread')

theorem ReportError.isContent_iff {e : ReportError} :
    e.isContent = true ↔ ∃ s, e = .number (.notANumber s) := by
  cases e with
  | number f =>
    cases f with
    | notANumber s => exact iff_of_true rfl ⟨s, rfl⟩
    | tooLarge | wrongKind _ => exact iff_of_false Bool.false_ne_true nofun
  | noMembers _ | noItems _ => exact iff_of_false Bool.false_ne_true nofun

namespace LoadedReport

theorem load_of_holdsJson (h : HoldsJson room bytes j) :
    load room (.file bytes) = (ofJson? j).mapError .report := by
  obtain ⟨text, htext, hread⟩ := h
  simp only [load, htext, hread]

theorem load_of_overflows {e : Json.ReadError} (h : Overflows room bytes e) :
    load room (.file bytes) = .error (.room e) := by
  obtain ⟨text, htext, hread, hroom⟩ := h
  simp only [load, htext, hread, hroom, if_true]

/-- A file without JSON holds no report. -/
theorem load_of_not_holdsJson (hjson : ∀ j, ¬ HoldsJson room bytes j)
    (hroom : ∀ e, ¬ Overflows room bytes e) : load room (.file bytes) = .ok none := by
  rw [load]
  cases htext : Text.ofUtf8 bytes with
  | error _ => rfl
  | ok text =>
    dsimp only
    cases hread : Json.readWithin room text.toList with
    | error e => exact if_neg fun he => hroom e ⟨text, htext, hread, he⟩
    | ok j => exact absurd ⟨text, htext, hread⟩ (hjson j)

/-- **Where the room suffices it does not matter** how much of it there is. -/
theorem load_eq_ofBytes (h : ∀ e, ¬ Overflows room bytes e) :
    load room (.file bytes) = (ofBytes bytes).mapError .report := by
  rw [load, ofBytes]
  cases htext : Text.ofUtf8 bytes with
  | error _ => rfl
  | ok text =>
    have hshort : ¬ Json.IsShort (Json.readWithin room text.toList) := fun ⟨e, he, hroom⟩ =>
      h e ⟨text, htext, he, hroom⟩
    dsimp only
    rw [← Json.readWithin_eq_read hshort]
    cases hread : Json.readWithin room text.toList with
    | error e => exact if_neg fun he => h e ⟨text, htext, hread, he⟩
    | ok j => rfl

/-- **A value counts as a report, or as none, or as neither**, by its first fault. -/
theorem ofJson?_outcome (j : Json) :
    (∀ e, ofJson? j = .error e ↔ j.ReportFault e ∧ ¬ ∃ s, e = .number (.notANumber s))
    ∧ (ofJson? j = .ok none ↔ ∃ s, j.ReportFault (.number (.notANumber s)))
    ∧ ((∃ r, ofJson? j = .ok (some r)) ↔ ∀ e, ¬ j.ReportFault e) := by
  simp only [← ReportError.isContent_iff, ← ofJson_eq_error_iff]
  rw [ofJson?]
  cases hread : ofJson j with
  | ok r =>
    exact ⟨fun e => iff_of_false nofun nofun, iff_of_false nofun nofun,
      iff_of_true ⟨r, rfl⟩ nofun⟩
  | error e =>
    dsimp only
    by_cases hcontent : e.isContent = true
    · obtain ⟨s, rfl⟩ := ReportError.isContent_iff.mp hcontent
      rw [if_pos hcontent]
      refine ⟨fun e' => iff_of_false nofun fun ⟨he, h⟩ => ?_, iff_of_true rfl ⟨s, rfl⟩,
        iff_of_false nofun fun h => h _ rfl⟩
      exact h (Except.error.inj he ▸ hcontent)
    · rw [if_neg hcontent]
      refine ⟨fun e' => ?_, iff_of_false nofun fun ⟨s, hs⟩ => ?_,
        iff_of_false nofun fun h => h e rfl⟩
      · rw [Except.error.injEq, Except.error.injEq]
        exact ⟨fun he => ⟨he, he ▸ hcontent⟩, And.left⟩
      · exact hcontent (ReportError.isContent_iff.mpr ⟨s, Except.error.inj hs⟩)

/-- A text that opens more lists than there is room for is given up, whatever follows. -/
theorem exists_overflows {n : Nat} {s : List Char} (h : room ≤ n)
    (htext : Text.ofUtf8 bytes = .ok (String.ofList ('[' :: (List.replicate n '[' ++ s)))) :
    ∃ e, Overflows room bytes e := by
  obtain ⟨e, hread, hroom⟩ := Json.isShort_brackets h s
  refine ⟨e, _, htext, ?_, hroom⟩
  rw [String.toList_ofList, hread]

/-- **How a file is loaded**, with room for so many lists and objects inside each
other. -/
structure LoadsAs (room : Nat) (bytes : List UInt8)
    (outcome : Except LoadError (Option LoadedReport)) : Prop where
  /-- It fails for the first fault of its JSON, if that is anything but a text that
  writes no number. -/
  report_iff : ∀ e, outcome = .error (.report e)
    ↔ (∃ j, HoldsJson room bytes j ∧ j.ReportFault e) ∧ ¬ ∃ s, e = .number (.notANumber s)
  /-- It fails where the reader runs out of room. -/
  room_iff : ∀ e, outcome = .error (.room e) ↔ Overflows room bytes e
  /-- It counts as holding no report if it holds no JSON, or if the first fault is such
  a text. -/
  none_iff : outcome = .ok none
    ↔ ((¬ ∃ j, HoldsJson room bytes j) ∧ ¬ ∃ e, Overflows room bytes e)
      ∨ ∃ j, HoldsJson room bytes j ∧ ∃ s, j.ReportFault (.number (.notANumber s))
  /-- It holds a report if its JSON has no fault. -/
  some_iff : (∃ r, outcome = .ok (some r))
    ↔ ∃ j, HoldsJson room bytes j ∧ ∀ e, ¬ j.ReportFault e
  /-- Where the room suffices it does not matter how much of it there is. -/
  roomy : (∀ e, ¬ Overflows room bytes e) → outcome = (ofBytes bytes).mapError .report
  /-- Brackets that open more lists than there is room for cannot be loaded, closed or
  not. -/
  crowded : ∀ n s, room ≤ n →
    Text.ofUtf8 bytes = .ok (String.ofList ('[' :: (List.replicate n '[' ++ s))) →
      ∃ e, outcome = .error (.room e)

/-- **Every file is loaded, or counts as holding no report, or fails**, by its first
fault and by the room there is. -/
theorem load_outcome (room : Nat) (bytes : List UInt8) :
    LoadsAs room bytes (load room (.file bytes)) := by
  have hcrowded (n : Nat) (s : List Char) (hn : room ≤ n)
      (htext : Text.ofUtf8 bytes = .ok (String.ofList ('[' :: (List.replicate n '[' ++ s)))) :
      ∃ e, load room (.file bytes) = .error (.room e) :=
    (exists_overflows hn htext).imp fun e => load_of_overflows
  by_cases hjson : ∃ j, HoldsJson room bytes j
  · obtain ⟨j, hj⟩ := hjson
    obtain ⟨herror, hnone, hsome⟩ := ofJson?_outcome j
    refine ⟨fun e => ?_, fun e => ?_, ?_, ?_, load_eq_ofBytes, hcrowded⟩
    · simp only [hj.exists_iff, load_of_holdsJson hj, ← herror, mapError_eq_error_iff,
        LoadError.report.injEq, exists_eq_right]
    · refine iff_of_false ?_ (hj.not_overflows e)
      rw [load_of_holdsJson hj, mapError_eq_error_iff]
      rintro ⟨_, -, ⟨⟩⟩
    · simp only [hj.exists_iff, load_of_holdsJson hj, ← hnone, mapError_eq_ok_iff,
        show ∃ j, HoldsJson room bytes j from ⟨j, hj⟩, not_true_eq_false, false_and, false_or]
    · simp only [hj.exists_iff, load_of_holdsJson hj, ← hsome, mapError_eq_ok_iff]
  · have hnot {p : Json → Prop} : ¬ ∃ j, HoldsJson room bytes j ∧ p j :=
      fun ⟨j, hj, _⟩ => hjson ⟨j, hj⟩
    by_cases hroom : ∃ e, Overflows room bytes e
    · obtain ⟨e, he⟩ := hroom
      refine ⟨fun e' => ?_, fun e' => ?_, ?_, ?_, load_eq_ofBytes, hcrowded⟩
      all_goals rw [load_of_overflows he]
      · exact iff_of_false nofun fun h => hnot h.1
      · rw [Except.error.injEq, LoadError.room.injEq]
        exact ⟨fun h => h ▸ he, he.eq⟩
      · exact iff_of_false nofun fun h => h.elim (fun h => h.2 ⟨e, he⟩) hnot
      · exact iff_of_false nofun hnot
    · refine ⟨fun e' => ?_, fun e' => ?_, ?_, ?_, load_eq_ofBytes, hcrowded⟩
      all_goals rw [load_of_not_holdsJson (not_exists.mp hjson) (not_exists.mp hroom)]
      · exact iff_of_false nofun fun h => hnot h.1
      · exact iff_of_false nofun (not_exists.mp hroom e')
      · exact iff_of_true rfl (.inl ⟨hjson, hroom⟩)
      · exact iff_of_false nofun hnot

/-- A file with an empty list is neither loaded nor without a report, however much room
there is. -/
theorem load_list :
    ¬ ∃ room, 0 < room ∧ ∀ bytes, ∃ r, load room (.file bytes) = .ok r := by
  rintro ⟨room, hroom, h⟩
  obtain ⟨room, rfl⟩ := Nat.exists_eq_add_of_le' hroom
  obtain ⟨r, hr⟩ := h "[]".toUTF8.toList
  have hjson : HoldsJson (room + 1) "[]".toUTF8.toList (.arr []) :=
    ⟨"[]", Text.ofUtf8_toUTF8 "[]", by rfl⟩
  rw [load_of_holdsJson hjson] at hr
  exact nomatch hr

end LoadedReport

end Files

end Reckon
