import Mathlib.Logic.Basic
import Reckon.Json.Reader

/-!
# Room for nesting

A reader of JSON needs room for each list or object that it is inside of, and with
less room than a text asks for it gives up (`Json.IsShort`). Short of that the room
does not matter: what a reader says with some room it says with more
(`Json.refines_readers`), so there is one answer for a text, that of the reader with
room for everything (`Json.readWithin_eq_read`), and a text for which the room is too
small gets none.

Not only a text that nests too deep is given up. The reader stops where the room ends,
before it has seen whether the brackets are closed (`Json.isShort_brackets`).
-/

namespace Reckon.Json

/-- **Is a reading short of room?** -/
def IsShort {τ : Type} (r : Except ReadError τ) : Prop :=
  ∃ e, r = .error e ∧ e.fault.isRoom = true

/-- **What a reading says, another one says too**, unless the first is short of
room. -/
def Refines {τ : Type} (r r' : Except ReadError τ) : Prop :=
  IsShort r ∨ r' = r

section Readings

variable {τ σ : Type} {r r' : Except ReadError τ}

theorem isShort_error_iff {e : ReadError} :
    IsShort (.error e : Except ReadError τ) ↔ e.fault.isRoom = true := by
  refine ⟨fun ⟨e', he, hroom⟩ => ?_, fun h => ⟨e, rfl, h⟩⟩
  rwa [Except.error.inj he]

theorem not_isShort_error {e : ReadError} (h : e.fault.isRoom = false) :
    ¬ IsShort (.error e : Except ReadError τ) := by
  rw [isShort_error_iff, h]
  exact Bool.false_ne_true

theorem not_isShort_ok {x : τ} : ¬ IsShort (.ok x) :=
  fun ⟨_, h, _⟩ => nomatch h

theorem IsShort.bind (h : IsShort r) (f : τ → Except ReadError σ) : IsShort (r >>= f) := by
  obtain ⟨e, rfl, he⟩ := h
  exact ⟨e, rfl, he⟩

theorem not_isShort_bind {f : τ → Except ReadError σ} (h : ¬ IsShort r)
    (hf : ∀ x, ¬ IsShort (f x)) : ¬ IsShort (r >>= f) := by
  cases r with
  | error e => exact fun hshort => h (isShort_error_iff.mpr (isShort_error_iff.mp hshort))
  | ok x => exact hf x

theorem isShort_map_iff {f : τ → σ} : IsShort (r.map f) ↔ IsShort r := by
  cases r with
  | error e => exact isShort_error_iff.trans isShort_error_iff.symm
  | ok x => exact iff_of_false not_isShort_ok not_isShort_ok

theorem Refines.refl (r : Except ReadError τ) : Refines r r :=
  .inr rfl

theorem Refines.map (h : Refines r r') (f : τ → σ) : Refines (r.map f) (r'.map f) :=
  h.imp isShort_map_iff.mpr (congrArg _)

theorem Refines.bind {f f' : τ → Except ReadError σ} (h : Refines r r')
    (hf : ∀ x, Refines (f x) (f' x)) : Refines (r >>= f) (r' >>= f') := by
  rcases h with h | rfl
  · exact .inl (h.bind f)
  · cases r' with
    | error e => exact .refl _
    | ok x => exact hf x

end Readings

/-! ## More room -/

/-- **With more room a reader says the same**, unless it is short of room with
less. -/
theorem refines_readers (fuel : Nat) {room room' : Nat} (h : room ≤ room') :
    (∀ s, Refines (readValue room fuel s) (readValue room' fuel s))
      ∧ (∀ s, Refines (readItems room fuel s) (readItems room' fuel s))
      ∧ ∀ members s,
        Refines (readMembers room fuel members s) (readMembers room' fuel members s) := by
  induction fuel generalizing room room' with
  | zero => exact ⟨fun _ => .refl _, fun _ => .refl _, fun _ _ => .refl _⟩
  | succ fuel ih =>
    obtain ⟨hvalue, hitems, hmembers⟩ := ih h
    refine ⟨fun s => ?_, fun s => ?_, fun members s => ?_⟩
    · cases room with
      | zero =>
        unfold readValue
        split
        · exact .inl (isShort_error_iff.mpr rfl)
        · exact .inl (isShort_error_iff.mpr rfl)
        · exact .refl _
      | succ room =>
        obtain ⟨room', rfl⟩ : ∃ k, room' = k + 1 := ⟨room' - 1, by omega⟩
        obtain ⟨-, hitems, hmembers⟩ := ih (Nat.le_of_succ_le_succ h)
        unfold readValue
        split
        · dsimp only
          split
          · exact .refl _
          · exact (hitems _).map _
        · dsimp only
          split
          · exact .refl _
          · exact (hmembers [] _).map _
        · exact .refl _
    · rw [readItems, readItems]
      refine (hvalue s).bind fun (item, rest) => ?_
      dsimp only
      split
      · exact .refl _
      · exact (hitems _).map _
      · exact .refl _
    · unfold readMembers
      split
      · refine .bind (.refl _) fun (name, rest) => ?_
        dsimp only
        split
        · refine (hvalue _).bind fun (value, rest) => ?_
          dsimp only
          split
          · exact .refl _
          · exact hmembers _ _
          · exact .refl _
        · exact .refl _
      · exact .refl _

/-! ## Room for everything -/

theorem not_isShort_readLetters (start fuel : Nat) (s : List Char) :
    ¬ IsShort (readLetters start fuel s) := by
  fun_induction readLetters start fuel s with
  | case1 | case2 | case4 | case6 | case8 | case9 => exact not_isShort_error rfl
  | case3 => exact not_isShort_ok
  | case5 | case7 | case10 =>
    rename_i ih
    exact isShort_map_iff.not.mpr ih

theorem not_isShort_readNumber (s : List Char) : ¬ IsShort (readNumber s) := by
  unfold readNumber
  dsimp only
  -- With a sign or without one, the rest is read in the same way.
  split
  all_goals
    split
    · exact not_isShort_error rfl
    · split
      · split
        · exact not_isShort_error rfl
        · exact not_isShort_ok
      · split
        · exact not_isShort_ok
        · exact not_isShort_error rfl

theorem not_isShort_readSimple (s : List Char) : ¬ IsShort (readSimple s) := by
  unfold readSimple
  split
  · exact isShort_map_iff.not.mpr (not_isShort_readLetters _ _ _)
  · split
    · exact not_isShort_ok
    · exact not_isShort_readNumber s

/-- **A reader with as much room as fuel is not short of room.** -/
theorem not_isShort_readers {room fuel : Nat} (h : fuel ≤ room) :
    (∀ s, ¬ IsShort (readValue room fuel s))
      ∧ (∀ s, ¬ IsShort (readItems room fuel s))
      ∧ ∀ members s, ¬ IsShort (readMembers room fuel members s) := by
  induction fuel generalizing room with
  | zero =>
    exact ⟨fun _ => not_isShort_error rfl, fun _ => not_isShort_error rfl,
      fun _ _ => not_isShort_error rfl⟩
  | succ fuel ih =>
    obtain ⟨hvalue, hitems, hmembers⟩ := ih (Nat.le_of_succ_le h)
    refine ⟨fun s => ?_, fun s => ?_, fun members s => ?_⟩
    · obtain ⟨room, rfl⟩ : ∃ k, room = k + 1 := ⟨room - 1, by omega⟩
      obtain ⟨-, hitems, hmembers⟩ := ih (Nat.le_of_succ_le_succ h)
      unfold readValue
      split
      · dsimp only
        split
        · exact not_isShort_ok
        · exact isShort_map_iff.not.mpr (hitems _)
      · dsimp only
        split
        · exact not_isShort_ok
        · exact isShort_map_iff.not.mpr (hmembers [] _)
      · exact not_isShort_readSimple s
    · rw [readItems]
      refine not_isShort_bind (hvalue s) fun (item, rest) => ?_
      dsimp only
      split
      · exact not_isShort_ok
      · exact isShort_map_iff.not.mpr (hitems _)
      · exact not_isShort_error rfl
    · unfold readMembers
      split
      · refine not_isShort_bind (not_isShort_readLetters _ _ _) fun (name, rest) => ?_
        dsimp only
        split
        · refine not_isShort_bind (hvalue _) fun (value, rest) => ?_
          dsimp only
          split
          · exact not_isShort_ok
          · exact hmembers _ _
          · exact not_isShort_error rfl
        · exact not_isShort_error rfl
      · exact not_isShort_error rfl

/-! ## Texts -/

/-- **With more room a text is read in the same way**, unless there is too little for
it with less. -/
theorem refines_readWithin {room room' : Nat} (h : room ≤ room') (s : List Char) :
    Refines (readWithin room s) (readWithin room' s) := by
  unfold readWithin
  split
  · exact .refl _
  · exact ((refines_readers _ h).1 _).bind fun _ => .refl _

/-- A reader that asks for no room has room for everything. -/
theorem not_isShort_read (s : List Char) : ¬ IsShort (read s) := by
  unfold read readWithin
  split
  · exact not_isShort_error rfl
  · refine not_isShort_bind ((not_isShort_readers (Nat.le_refl _)).1 _) fun (value, rest) => ?_
    dsimp only
    split
    · exact not_isShort_ok
    · exact not_isShort_error rfl

/-- **What is read with some room is what the text is read as.** -/
theorem readWithin_eq_read {room : Nat} {s : List Char} (h : ¬ IsShort (readWithin room s)) :
    readWithin room s = read s := by
  rcases Nat.le_total room (fuelFor s) with hroom | hroom
  · exact ((refines_readWithin hroom s).resolve_left h).symm
  · exact (refines_readWithin hroom s).resolve_left (not_isShort_read s)

/-! ## Texts that nest too deep -/

/-- A list at the front of a list is read with the room that is left. -/
theorem isShort_readValue_nested {room fuel : Nat} {s : List Char}
    (h : IsShort (readValue room fuel ('[' :: s))) :
    IsShort (readValue (room + 1) (fuel + 2) ('[' :: '[' :: s)) := by
  show IsShort ((readItems room (fuel + 1) ('[' :: s)).map _)
  rw [isShort_map_iff, readItems]
  exact h.bind _

theorem isShort_readValue_brackets {room n fuel : Nat} (hroom : room ≤ n)
    (hfuel : 2 * n < fuel) (s : List Char) :
    IsShort (readValue room fuel ('[' :: (List.replicate n '[' ++ s))) := by
  induction room generalizing n fuel with
  | zero =>
    obtain ⟨fuel, rfl⟩ : ∃ k, fuel = k + 1 := ⟨fuel - 1, by omega⟩
    exact isShort_error_iff.mpr rfl
  | succ room ih =>
    obtain ⟨n, rfl⟩ : ∃ k, n = k + 1 := ⟨n - 1, by omega⟩
    obtain ⟨fuel, rfl⟩ : ∃ k, fuel = k + 2 := ⟨fuel - 2, by omega⟩
    exact isShort_readValue_nested (ih (Nat.le_of_succ_le_succ hroom) (by omega))

/-- **Brackets that open more lists than there is room for are given up**, whatever
follows them. -/
theorem isShort_brackets {room n : Nat} (h : room ≤ n) (s : List Char) :
    IsShort (readWithin room ('[' :: (List.replicate n '[' ++ s))) := by
  have hfuel : 2 * n < fuelFor ('[' :: (List.replicate n '[' ++ s)) := by
    rw [fuelFor, List.length_cons, List.length_append, List.length_replicate]
    omega
  exact (isShort_readValue_brackets h hfuel s).bind _

end Reckon.Json
