import Mathlib.Data.List.DropRight
import Reckon.Text.Blank

/-!
# Blanks around two texts

A text is stripped before it is evaluated, on the left up to its first
character that is not blank and on the right down to its last one. Where a
text is put together from two parts, each side is the matter of one of them,
unless that part is blank: then it goes altogether.
-/

namespace Reckon.Text

/-- What is dropped from the end of two lists is dropped from the second one,
and from the first one only if nothing of the second is left. -/
theorem rdropWhile_append {α : Type} (p : α → Bool) (s t : List α) :
    (s ++ t).rdropWhile p
      = if t.rdropWhile p = [] then s.rdropWhile p else s ++ t.rdropWhile p := by
  unfold List.rdropWhile
  simp only [List.reverse_append, List.dropWhile_append, List.reverse_eq_nil_iff,
    List.isEmpty_iff]
  split
  · rfl
  · rw [List.reverse_append, List.reverse_reverse]

theorem strip_eq_nil_iff {s : List Char} : strip s = [] ↔ s.dropWhile isBlank = [] := by
  show (s.dropWhile isBlank).rdropWhile isBlank = [] ↔ _
  rw [List.rdropWhile_eq_nil_iff, List.dropWhile_eq_nil_iff]
  refine ⟨fun h x hx => ?_, fun h x hx => h x ((List.dropWhile_suffix _).subset hx)⟩
  rw [← List.takeWhile_append_dropWhile (p := isBlank) (l := s)] at hx
  rcases List.mem_append.mp hx with hx | hx
  · exact List.all_eq_true.mp List.all_takeWhile x hx
  · exact h x hx

theorem rdropWhile_eq_nil_of_strip {s : List Char} (h : strip s = []) :
    s.rdropWhile isBlank = [] := by
  rw [List.rdropWhile_eq_nil_iff, ← List.dropWhile_eq_nil_iff]
  exact strip_eq_nil_iff.mp h

/-- **A blank part in front** is stripped off. -/
theorem strip_append_of_blank_left {s : List Char} (h : strip s = []) (t : List Char) :
    strip (s ++ t) = strip t := by
  show ((s ++ t).dropWhile isBlank).rdropWhile isBlank = _
  rw [List.dropWhile_append, strip_eq_nil_iff.mp h]
  rfl

/-- **A blank part behind** is stripped off. -/
theorem strip_append_of_blank_right (s : List Char) {t : List Char} (h : strip t = []) :
    strip (s ++ t) = strip s := by
  show ((s ++ t).dropWhile isBlank).rdropWhile isBlank = _
  rw [List.dropWhile_append]
  split
  · rename_i hs
    rw [strip_eq_nil_iff.mp h, List.rdropWhile_nil, eq_comm, strip_eq_nil_iff]
    exact List.isEmpty_iff.mp hs
  · rw [rdropWhile_append, if_pos (rdropWhile_eq_nil_of_strip h)]
    rfl

/-- **Two parts that are not blank** are stripped at their outer ends. -/
theorem strip_append {s t : List Char} (hs : strip s ≠ []) (ht : strip t ≠ []) :
    strip (s ++ t) = s.dropWhile isBlank ++ t.rdropWhile isBlank := by
  have hleft : s.dropWhile isBlank ≠ [] := fun h => hs (strip_eq_nil_iff.mpr h)
  have hright : t.rdropWhile isBlank ≠ [] := fun h => ht <| by
    rw [strip_eq_nil_iff, List.dropWhile_eq_nil_iff, ← List.rdropWhile_eq_nil_iff]
    exact h
  show ((s ++ t).dropWhile isBlank).rdropWhile isBlank = _
  rw [List.dropWhile_append, if_neg fun h => hleft (List.isEmpty_iff.mp h), rdropWhile_append,
    if_neg hright]

end Reckon.Text
