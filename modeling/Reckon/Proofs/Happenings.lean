import Reckon.Note
import Reckon.Proofs.Passes

/-!
# What happens in an evaluation

Literals are read and scopes end, and nothing else happens in an evaluation
that could be lost on the way: a reduction changes the terms of its scope, so
the tree does not show what was scanned, and a literal without a value looks
like any other undefined value. `Frame.happenings` lists both for the recursion,
in their order and with one equation for each thing that a pass can take.

The notes on an evaluation are read off the states of the machine. The
machine makes the scans of the recursion, so what the notes tell of literals
and scopes is what the happenings tell.
-/

namespace Reckon

/-- **Something that happens in an evaluation.** -/
inductive Happening (α : Type) where
  /-- A literal is read. -/
  | read (l : Literal)
  /-- A scope ends with these terms, which are still to be reduced. -/
  | ended (terms : List (Term α))

variable {α : Type}

/-- The terms of the scope that ends, if one does. -/
def Happening.ended? : Happening α → Option (List (Term α))
  | .read _ => none
  | .ended ts => some ts

/-- The scope that a scan brings to its end: none, if it only stops for a
group. -/
def Scan.ending (s : Scan α) : List (Happening α) :=
  if s.stop = .opened then [] else [.ended s.scope.terms]

variable [Arithmetic α]

/-! ## The happenings of a scan -/

namespace Scope

variable {s : Scope α} {c d : Cursor} {o : Operator} {l : Literal}

theorem literals_of_literal (h : s.pass c = .literal o l d) :
    s.literals c = l :: (s.push (l.term o)).literals d := by
  rw [literals]
  split <;> simp_all [Literal.term]

theorem literals_of_blank (h : s.pass c = .blank d) :
    s.literals c = { s with grown := false }.literals d := by
  rw [literals]
  split <;> simp_all

theorem literals_of_stop (hl : ∀ o l d, s.pass c ≠ .literal o l d)
    (hb : ∀ d, s.pass c ≠ .blank d) : s.literals c = [] := by
  rw [literals]
  split <;> simp_all

/-- **The happenings of a scan**: its literals, and then the end of the scope if
the scan brings it about. -/
def happenings (s : Scope α) (c : Cursor) : List (Happening α) :=
  (s.literals c).map .read ++ (s.scan c).ending

theorem happenings_of_ended (h : s.pass c = .ended) : s.happenings c = [.ended s.terms] := by
  rw [happenings, literals_of_stop (by simp [h]) (by simp [h]), scan_of_ended h]
  rfl

theorem happenings_of_stalled (h : s.pass c = .stalled) : s.happenings c = [.ended s.terms] := by
  rw [happenings, literals_of_stop (by simp [h]) (by simp [h]), scan_of_stalled h]
  rfl

theorem happenings_of_closed (h : s.pass c = .closed d) : s.happenings c = [.ended s.terms] := by
  rw [happenings, literals_of_stop (by simp [h]) (by simp [h]), scan_of_closed h]
  rfl

theorem happenings_of_opened (h : s.pass c = .opened o d) : s.happenings c = [] := by
  rw [happenings, literals_of_stop (by simp [h]) (by simp [h]), scan_of_opened h]
  rfl

theorem happenings_of_literal (h : s.pass c = .literal o l d) :
    s.happenings c = .read l :: (s.push (l.term o)).happenings d := by
  rw [happenings, literals_of_literal h, scan_of_literal h]
  rfl

theorem happenings_of_blank (h : s.pass c = .blank d) :
    s.happenings c = { s with grown := false }.happenings d := by
  rw [happenings, literals_of_blank h, scan_of_blank h]
  rfl

end Scope

/-! ## The happenings of an evaluation -/

namespace Frame

variable {f : Frame α} {c d : Cursor} {o : Operator} {l : Literal}

/-- **The happenings of an evaluation**, scan by scan. -/
def happenings (f : Frame α) (c : Cursor) : List (Happening α) :=
  (f.visits c).flatMap fun v => v.1.happenings v.2

/-- A scan that ends its scope is the last one of it. -/
theorem happenings_of_stop (h : (f.scope.scan c).stop ≠ .opened) :
    f.happenings c = f.scope.happenings c := by
  rw [happenings, visits_eq]
  dsimp only
  rw [if_neg h, List.flatMap_singleton]

theorem happenings_of_ended (h : f.scope.pass c = .ended) :
    f.happenings c = [.ended f.scope.terms] := by
  rw [happenings_of_stop (by simp [Scope.scan_of_ended h]), Scope.happenings_of_ended h]

theorem happenings_of_stalled (h : f.scope.pass c = .stalled) :
    f.happenings c = [.ended f.scope.terms] := by
  rw [happenings_of_stop (by simp [Scope.scan_of_stalled h]), Scope.happenings_of_stalled h]

theorem happenings_of_closed (h : f.scope.pass c = .closed d) :
    f.happenings c = [.ended f.scope.terms] := by
  rw [happenings_of_stop (by simp [Scope.scan_of_closed h]), Scope.happenings_of_closed h]

theorem happenings_of_opened (h : f.scope.pass c = .opened o d) :
    f.happenings c
      = happenings { scope := .group } d
        ++ ((f.await o).attach (evaluateGroup (α := α) d).1).happenings
          (evaluateGroup (α := α) d).2 := by
  rw [happenings, visits_eq, Scope.scan_of_opened h]
  dsimp only
  rw [if_pos rfl, List.flatMap_cons, List.flatMap_append, Scope.happenings_of_opened h]
  rfl

theorem happenings_of_literal (h : f.scope.pass c = .literal o l d) :
    f.happenings c = .read l :: (f.push (l.term o)).happenings d := by
  rw [happenings, happenings, visits_eq f c, visits_eq _ d, Scope.scan_of_literal h]
  dsimp only
  rw [List.flatMap_cons, List.flatMap_cons, Scope.happenings_of_literal h]
  rfl

theorem happenings_of_blank (h : f.scope.pass c = .blank d) :
    f.happenings c = f.idle.happenings d := by
  rw [happenings, happenings, visits_eq f c, visits_eq _ d, Scope.scan_of_blank h]
  dsimp only
  rw [List.flatMap_cons, List.flatMap_cons, Scope.happenings_of_blank h]
  rfl

/-- The terms with which the scopes of an evaluation end, in the order in
which they end. -/
def endings (f : Frame α) (c : Cursor) : List (List (Term α)) :=
  (f.happenings c).filterMap Happening.ended?

theorem endings_of_ended (h : f.scope.pass c = .ended) : f.endings c = [f.scope.terms] := by
  rw [endings, happenings_of_ended h]
  rfl

theorem endings_of_closed (h : f.scope.pass c = .closed d) : f.endings c = [f.scope.terms] := by
  rw [endings, happenings_of_closed h]
  rfl

theorem endings_of_opened (h : f.scope.pass c = .opened o d) :
    f.endings c
      = endings { scope := .group } d
        ++ ((f.await o).attach (evaluateGroup (α := α) d).1).endings
          (evaluateGroup (α := α) d).2 := by
  rw [endings, happenings_of_opened h, List.filterMap_append]
  rfl

theorem endings_of_literal (h : f.scope.pass c = .literal o l d) :
    f.endings c = (f.push (l.term o)).endings d := by
  rw [endings, happenings_of_literal h]
  rfl

theorem endings_of_blank (h : f.scope.pass c = .blank d) : f.endings c = [f.scope.terms] := by
  rw [endings, happenings_of_blank h]
  rcases Scope.pass_of_idle (s := f.idle.scope) rfl d with h | h
  · rw [happenings_of_ended h]
    rfl
  · rw [happenings_of_stalled h]
    rfl

end Frame

/-! ## The notes tell of the happenings -/

/-- The terms that the note is about, if it is on the end of a scan. -/
def Note.scanned? : Note α → Option (List (Term α))
  | .scanned ts => some ts
  | _ => none

/-- The notes are those on the scans of the recursion. -/
theorem Scope.notes_eq (s : Scope α) (c : Cursor) :
    s.notes c = (Frame.visits { scope := s } c).flatMap fun v =>
      Machine.stepNotes { cursor := v.2, top := { scope := v.1 } } := by
  unfold notes
  rw [← Scope.map_focus_states, List.flatMap_map]
  rfl

theorem mem_reductionNotes {ts : List (Term α)} {n : Note α} (h : n ∈ reductionNotes ts) :
    (n = .empty ∧ ts = []) ∨ (∃ o, n = .cannotLead o) ∨ ∃ o us, n = .contracted o us := by
  unfold reductionNotes at h
  split at h
  · exact .inl ⟨List.mem_singleton.mp h, rfl⟩
  · exact absurd h List.not_mem_nil
  · exact absurd h List.not_mem_nil
  · split at h
    · split at h
      · exact .inr (.inl ⟨_, List.mem_singleton.mp h⟩)
      · obtain ⟨k, _, rfl⟩ := List.mem_map.mp h
        exact .inr (.inr ⟨_, _, rfl⟩)
    · exact absurd h List.not_mem_nil

theorem Scope.filterMap_scanned?_scanNotes (s : Scope α) (c : Cursor) :
    (s.scanNotes c).filterMap Note.scanned? = (s.happenings c).filterMap Happening.ended? := by
  have hmalformed (ls : List Literal) :
      (ls.map fun l => (.malformed l.run : Note α)).filterMap Note.scanned? = [] := by
    rw [List.filterMap_map]
    exact List.filterMap_eq_nil_iff.mpr fun _ _ => rfl
  have hread (ls : List Literal) :
      (ls.map (.read : Literal → Happening α)).filterMap Happening.ended? = [] := by
    rw [List.filterMap_map]
    exact List.filterMap_eq_nil_iff.mpr fun _ _ => rfl
  unfold scanNotes happenings
  rw [List.filterMap_append, List.filterMap_append, hmalformed, hread, Scan.ending]
  cases (s.scan c).stop <;> rfl

/-- **The scanned terms of the notes** are those with which the scopes end. -/
theorem Scope.filterMap_scanned?_notes (s : Scope α) (c : Cursor) :
    (s.notes c).filterMap Note.scanned? = Frame.endings { scope := s } c := by
  rw [notes_eq, Frame.endings, Frame.happenings, List.filterMap_flatMap, List.filterMap_flatMap]
  refine congrArg (List.flatMap · _) ?_
  funext v
  have hreduction (ts : List (Term α)) : (reductionNotes ts).filterMap Note.scanned? = [] := by
    rw [List.filterMap_eq_nil_iff]
    intro n hn
    rcases mem_reductionNotes hn with ⟨rfl, _⟩ | ⟨o, rfl⟩ | ⟨o, us, rfl⟩ <;> rfl
  unfold Machine.stepNotes
  rw [List.filterMap_append, filterMap_scanned?_scanNotes]
  split
  · exact List.append_nil _
  · rw [hreduction]
    exact List.append_nil _

/-- **A malformed literal that is noted has been read.** -/
theorem Scope.exists_read_of_malformed {s : Scope α} {c : Cursor} {run : List Char}
    (h : .malformed run ∈ s.notes c) :
    ∃ l, .read l ∈ Frame.happenings { scope := s } c ∧ l.decimal? = none := by
  rw [notes_eq] at h
  obtain ⟨v, hv, h⟩ := List.mem_flatMap.mp h
  -- Only the notes on the literals of a scan are of this kind.
  have hliteral : ∃ l ∈ v.1.literals v.2, l.decimal? = none := by
    rcases List.mem_append.mp h with h | h
    · rcases List.mem_append.mp h with h | h
      · obtain ⟨l, hl, _⟩ := List.mem_map.mp h
        obtain ⟨hl, hnone⟩ := List.mem_filter.mp hl
        exact ⟨l, hl, Option.isNone_iff_eq_none.mp hnone⟩
      · split at h <;> simp at h
    · split at h
      · exact absurd h List.not_mem_nil
      · rcases mem_reductionNotes h with ⟨h, _⟩ | ⟨o, h⟩ | ⟨o, us, h⟩ <;> simp at h
  obtain ⟨l, hl, hnone⟩ := hliteral
  refine ⟨l, List.mem_flatMap.mpr ⟨v, hv, ?_⟩, hnone⟩
  exact List.mem_append_left _ (List.mem_map_of_mem hl)

/-- **A scope that is noted as empty has ended without terms.** -/
theorem Scope.ended_nil_of_empty {s : Scope α} {c : Cursor} (h : .empty ∈ s.notes c) :
    .ended [] ∈ Frame.happenings { scope := s } c := by
  rw [notes_eq] at h
  obtain ⟨v, hv, h⟩ := List.mem_flatMap.mp h
  refine List.mem_flatMap.mpr ⟨v, hv, List.mem_append_right _ ?_⟩
  rcases List.mem_append.mp h with h | h
  · rcases List.mem_append.mp h with h | h
    · obtain ⟨l, _, h⟩ := List.mem_map.mp h
      exact absurd h (by simp)
    · split at h <;> simp at h
  · split at h
    · exact absurd h List.not_mem_nil
    · rename_i hstop
      rcases mem_reductionNotes h with ⟨_, hnil⟩ | ⟨o, h⟩ | ⟨o, us, h⟩
      · rw [Scan.ending, if_neg hstop]
        exact hnil ▸ List.mem_singleton_self _
      · exact absurd h (by simp)
      · exact absurd h (by simp)

end Reckon
