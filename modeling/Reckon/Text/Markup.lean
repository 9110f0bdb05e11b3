/-!
# Console markup

The console reads styles in square brackets, such as a colour around a
word. Text that comes from outside is escaped before it is printed:
whatever looks like a tag gets a backslash in front, and the backslashes
that already stand there are doubled so that they keep their meaning. A
single backslash at the end is doubled as well, since a tag may follow.
-/

namespace Reckon.Text

/-- May the character follow the opening bracket of a tag? -/
def opensTag (c : Char) : Bool :=
  ('a' ≤ c && c ≤ 'z') || c == '#' || c == '/' || c == '@'

/-- Splits a text that starts with a tag into the tag and what follows.
A tag holds no second opening bracket and goes to the first closing
one. -/
def splitTag? : List Char → Option (List Char × List Char)
  | '[' :: c :: rest =>
    if opensTag c then
      let inner := rest.takeWhile fun x => x != '[' && x != ']'
      match rest.drop inner.length with
      | ']' :: after => some ('[' :: c :: inner ++ [']'], after)
      | _ => none
    else none
  | _ => none

theorem length_lt_of_splitTag? {s tag after : List Char}
    (h : splitTag? s = some (tag, after)) : after.length < s.length := by
  unfold splitTag? at h
  split at h
  · rename_i c rest
    split at h
    · dsimp only at h
      split at h
      · rename_i rest' hdrop
        cases h
        have := congrArg List.length hdrop
        simp only [List.length_drop, List.length_cons] at this ⊢
        omega
      · simp at h
    · simp at h
  · simp at h

/-- Escapes every tag of a text. -/
def escapeTags (s : List Char) : List Char :=
  let slashes := s.takeWhile (· == '\\')
  match _ : s.drop slashes.length with
  | [] => slashes
  | c :: rest =>
    match _ : splitTag? (c :: rest) with
    | some (tag, after) => slashes ++ slashes ++ '\\' :: tag ++ escapeTags after
    | none => slashes ++ c :: escapeTags rest
termination_by s.length
decreasing_by
  · rename_i hr ht
    have := length_lt_of_splitTag? ht
    have hlen := congrArg List.length hr
    simp only [List.length_drop, List.length_cons] at this hlen
    omega
  · rename_i hr _
    have hlen := congrArg List.length hr
    simp only [List.length_drop, List.length_cons] at hlen
    omega

/-- **Escapes a text for the console.** -/
def escapeMarkup (s : String) : String :=
  let escaped := escapeTags s.toList
  match escaped.reverse with
  | '\\' :: '\\' :: _ => String.ofList escaped
  | '\\' :: _ => String.ofList (escaped ++ ['\\'])
  | _ => String.ofList escaped

end Reckon.Text
