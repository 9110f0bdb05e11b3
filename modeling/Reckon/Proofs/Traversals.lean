import Mathlib

/-!
# Computations that may fail, one after the other

A computation that may fail goes on with its result or stops with its error
(`bind_eq_ok_iff`, `bind_eq_error_iff`). A list is gone through in order: either
every element has a result, and these are the results of the whole
(`mapM_eq_ok_iff`), or the error is the one of the first element that fails, and
nothing behind it counts (`mapM_eq_error_iff`).
-/

namespace Reckon

variable {ε α β : Type}

/-! ## Two computations -/

theorem bind_eq_ok_iff {r : Except ε α} {f : α → Except ε β} {b : β} :
    r >>= f = .ok b ↔ ∃ a, r = .ok a ∧ f a = .ok b := by
  cases r with
  | error e => exact iff_of_false nofun fun ⟨_, h, _⟩ => nomatch h
  | ok a =>
    refine ⟨fun h => ⟨a, rfl, h⟩, fun ⟨a', ha, h⟩ => ?_⟩
    rw [← Except.ok.inj ha] at h
    exact h

theorem bind_eq_error_iff {r : Except ε α} {f : α → Except ε β} {e : ε} :
    r >>= f = .error e ↔ r = .error e ∨ ∃ a, r = .ok a ∧ f a = .error e := by
  cases r with
  | error e' =>
    refine ⟨fun h => .inl (congrArg Except.error (Except.error.inj h)), fun h => ?_⟩
    rcases h with h | ⟨_, h, _⟩
    · exact congrArg Except.error (Except.error.inj h)
    · exact nomatch h
  | ok a =>
    refine ⟨fun h => .inr ⟨a, rfl, h⟩, fun h => ?_⟩
    rcases h with h | ⟨a', ha, h⟩
    · exact nomatch h
    · rw [← Except.ok.inj ha] at h
      exact h

theorem exists_eq_ok_iff {r : Except ε α} : (∃ a, r = .ok a) ↔ ∀ e, r ≠ .error e := by
  cases r with
  | error e => exact iff_of_false nofun fun h => h e rfl
  | ok a => exact iff_of_true ⟨a, rfl⟩ nofun

theorem mapError_eq_ok_iff {ε' : Type} {r : Except ε α} {f : ε → ε'} {a : α} :
    r.mapError f = .ok a ↔ r = .ok a := by
  cases r with
  | error e => exact iff_of_false nofun nofun
  | ok b => exact ⟨fun h => congrArg Except.ok (Except.ok.inj h),
      fun h => congrArg Except.ok (Except.ok.inj h)⟩

theorem mapError_eq_error_iff {ε' : Type} {r : Except ε α} {f : ε → ε'} {e : ε'} :
    r.mapError f = .error e ↔ ∃ e', r = .error e' ∧ f e' = e := by
  cases r with
  | error e' =>
    refine ⟨fun h => ⟨e', rfl, Except.error.inj h⟩, fun ⟨e'', he, h⟩ => ?_⟩
    rw [← h, ← Except.error.inj he]
    rfl
  | ok a => exact iff_of_false nofun fun ⟨_, h, _⟩ => nomatch h

/-! ## Lists -/

variable {f : α → Except ε β} {xs : List α}

/-- **Going through a list succeeds if every element does**, with the results in
order. -/
theorem mapM_eq_ok_iff {ys : List β} :
    xs.mapM f = .ok ys ↔ List.Forall₂ (fun x y => f x = .ok y) xs ys := by
  induction xs generalizing ys with
  | nil =>
    rw [List.mapM_nil, List.forall₂_nil_left_iff]
    exact ⟨fun h => (Except.ok.inj h).symm, fun h => congrArg Except.ok h.symm⟩
  | cons x xs ih =>
    rw [List.mapM_cons, bind_eq_ok_iff, List.forall₂_cons_left_iff]
    refine exists_congr fun y => ?_
    rw [bind_eq_ok_iff, ← exists_and_left]
    refine exists_congr fun ys' => ?_
    rw [ih, eq_comm (a := ys)]
    refine and_congr_right fun _ => and_congr_right fun _ => ?_
    exact ⟨Except.ok.inj, congrArg Except.ok⟩

/-- **Going through a list stops at the first element that fails.** -/
theorem mapM_eq_error_iff {e : ε} :
    xs.mapM f = .error e ↔ ∃ before x after, xs = before ++ x :: after
      ∧ (∀ y ∈ before, ∃ b, f y = .ok b) ∧ f x = .error e := by
  induction xs with
  | nil =>
    refine iff_of_false nofun ?_
    rintro ⟨before, x, after, h, -⟩
    exact List.append_ne_nil_of_right_ne_nil before (List.cons_ne_nil x after) h.symm
  | cons x xs ih =>
    rw [List.mapM_cons, bind_eq_error_iff]
    constructor
    · rintro (h | ⟨b, hb, h⟩)
      · exact ⟨[], x, xs, rfl, List.forall_mem_nil _, h⟩
      rcases bind_eq_error_iff.mp h with h | ⟨_, _, h⟩
      · obtain ⟨before, y, after, rfl, hbefore, hy⟩ := ih.mp h
        exact ⟨x :: before, y, after, rfl, List.forall_mem_cons.mpr ⟨⟨b, hb⟩, hbefore⟩, hy⟩
      · exact nomatch h
    · rintro ⟨before, y, after, hxs, hbefore, hy⟩
      cases before with
      | nil =>
        obtain ⟨rfl, rfl⟩ := List.cons.inj hxs
        exact .inl hy
      | cons z before =>
        obtain ⟨rfl, rfl⟩ := List.cons.inj hxs
        obtain ⟨⟨b, hb⟩, hbefore⟩ := List.forall_mem_cons.mp hbefore
        exact .inr ⟨b, hb, bind_eq_error_iff.mpr (.inl (ih.mpr ⟨before, y, after, rfl, hbefore, hy⟩))⟩

/-- Going through a list succeeds if every element has a result. -/
theorem exists_mapM_eq_ok_iff :
    (∃ ys, xs.mapM f = .ok ys) ↔ ∀ x ∈ xs, ∃ y, f x = .ok y := by
  simp only [mapM_eq_ok_iff]
  induction xs with
  | nil => exact iff_of_true ⟨[], .nil⟩ (List.forall_mem_nil _)
  | cons x xs ih =>
    rw [List.forall_mem_cons, ← ih]
    constructor
    · rintro ⟨_, hx | ⟨hx, hxs⟩⟩
      exact ⟨⟨_, hx⟩, _, hxs⟩
    · rintro ⟨⟨y, hx⟩, ys, hxs⟩
      exact ⟨y :: ys, .cons hx hxs⟩

/-- The results of a list that is gone through are those of its elements. -/
theorem mem_of_mapM_eq_ok {ys : List β} (h : xs.mapM f = .ok ys) {y : β} :
    y ∈ ys ↔ ∃ x ∈ xs, f x = .ok y := by
  induction mapM_eq_ok_iff.mp h with
  | nil => exact iff_of_false List.not_mem_nil fun ⟨_, h, _⟩ => List.not_mem_nil h
  | cons hxy htail ih =>
    refine List.mem_cons.trans ((or_congr ?_ (ih (mapM_eq_ok_iff.mpr htail))).trans
      (List.exists_mem_cons_iff _ _ _).symm)
    rw [hxy]
    exact ⟨fun h => congrArg Except.ok h.symm, fun h => (Except.ok.inj h).symm⟩

/-- What holds between the elements of a list, in their order, passes on to the
results. -/
theorem pairwise_of_mapM_eq_ok {R : α → α → Prop} {S : β → β → Prop} {ys : List β}
    (h : xs.mapM f = .ok ys) (hxs : xs.Pairwise R)
    (hRS : ∀ {x x' y y'}, R x x' → f x = .ok y → f x' = .ok y' → S y y') : ys.Pairwise S := by
  induction mapM_eq_ok_iff.mp h with
  | nil => exact .nil
  | cons hxy htail ih =>
    obtain ⟨hx, hxs⟩ := List.pairwise_cons.mp hxs
    have htail := mapM_eq_ok_iff.mpr htail
    refine .cons (fun y' hy' => ?_) (ih htail hxs)
    obtain ⟨x', hx', hxy'⟩ := (mem_of_mapM_eq_ok htail).mp hy'
    exact hRS (hx x' hx') hxy hxy'

/-- Lists that go together are the same to two functions that agree on what goes
together. -/
theorem map_eq_of_forall₂ {γ : Type} {R : α → β → Prop} {g : α → γ} {g' : β → γ} {ys : List β}
    (h : List.Forall₂ R xs ys) (hR : ∀ x y, R x y → g' y = g x) : ys.map g' = xs.map g := by
  induction h with
  | nil => rfl
  | cons hxy _ ih => rw [List.map_cons, List.map_cons, hR _ _ hxy, ih]

/-- A search ends the same way for functions that agree on the elements of the list. -/
theorem findSome?_congr {g g' : α → Option β} (h : ∀ x ∈ xs, g x = g' x) :
    xs.findSome? g = xs.findSome? g' := by
  induction xs with
  | nil => rfl
  | cons x xs ih =>
    obtain ⟨hx, hxs⟩ := List.forall_mem_cons.mp h
    rw [List.findSome?_cons, List.findSome?_cons, hx]
    cases g' x with
    | none => exact ih hxs
    | some y => rfl

end Reckon
