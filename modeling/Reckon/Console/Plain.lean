import Reckon.Console
import Reckon.Text.Markup

/-!
# The console without styles

Where no styles can be shown, tags are left out, a tag that was escaped
is shown as it is, and a table is set in columns that are as wide as
their widest cells.
-/

namespace Reckon

namespace Text

/-- Half of the backslashes in front of a tag stand for backslashes. An
odd one out escapes the tag. -/
def dropTags (s : List Char) : List Char :=
  let slashes := s.takeWhile (· == '\\')
  match _ : s.drop slashes.length with
  | [] => slashes
  | c :: rest =>
    match _ : splitTag? (c :: rest) with
    | some (tag, after) =>
      let shown := if slashes.length % 2 = 0 then [] else tag
      slashes.take (slashes.length / 2) ++ shown ++ dropTags after
    | none => slashes ++ c :: dropTags rest
termination_by s.length
decreasing_by
  · rename_i hr ht
    have := length_lt_of_splitTag? ht
    have hlen := congrArg List.length hr
    simp only [List.length_drop, List.length_cons] at this hlen
    omega
  · rename_i hr _
    have hlen := congrArg List.length hr
    simp only [List.length_drop, List.length_cons] at hlen
    omega

/-- **A text in markup, without its styles.** -/
def plain (markup : String) : String :=
  String.ofList (dropTags markup.toList)

end Text

namespace Table

/-- The width of each column: that of its widest cell. -/
def widths (rows : List (List String)) : List Nat :=
  rows.foldl (fun ws row => ws.zipWith max (row.map String.length))
    ((rows.headD []).map String.length)

/-- A row set in columns, with a gap after each. -/
def setRow (widths : List Nat) (row : List String) : String :=
  String.join (row.zipWith (fun cell width =>
    cell ++ String.ofList (List.replicate (width + 2 - cell.length) ' ')) widths)

/-- **The lines of a table**: its title, its headers, its rows. -/
def plainLines (t : Table) : List String :=
  let rows := t.columns :: t.rows.map fun row => row.map Text.plain
  t.title :: rows.map (setRow (widths rows))

end Table

/-- **The lines that are printed.** -/
def Event.plainLines : Event → List String
  | line markup => [Text.plain markup]
  | table t => t.plainLines

end Reckon
