/-!
# Paths

A path leads from directory to directory by their names, either from the
root or from where one is. It is written with slashes between the names.
The empty name and the name `.` lead nowhere and are left out. The name
`..` leads back, and it is kept, because a path is shown as it was given.

So two paths that are shown differently may lead to one place. Whether
they do is told by `resolve`, which follows the names. That is right as
long as no directory on the way is a link to another.
-/

namespace Reckon

/-- **A path.** -/
structure Path where
  /-- The slashes at the front. Without one the path starts from where one
  is; two are kept apart from one. -/
  slashes : Nat := 0
  /-- The names to follow. -/
  names : List String
deriving Repr, DecidableEq

namespace Path

/-- The names between the slashes of a text. -/
def splitNames : List Char → List (List Char)
  | [] => [[]]
  | c :: cs =>
    if c == '/' then [] :: splitNames cs
    else
      match splitNames cs with
      | [] => [[c]]
      | name :: names => (c :: name) :: names

/-- **Reads a path.** Three slashes and more at the front are as one. -/
def ofString (s : String) : Path :=
  let front := (s.toList.takeWhile (· == '/')).length
  { slashes := if front ≤ 2 then front else 1
    names := ((splitNames s.toList).map String.ofList).filter fun name =>
      name != "" && name != "." }

/-- **The path as it is shown.** The path that leads nowhere is a dot. -/
def text (p : Path) : String :=
  if p.slashes = 0 && p.names.isEmpty then "."
  else String.ofList (List.replicate p.slashes '/') ++ "/".intercalate p.names

/-- A path as it is seen from another one. One that starts from the root
stays as it is. -/
def append (p q : Path) : Path :=
  if q.slashes = 0 then { p with names := p.names ++ q.names } else q

instance : HDiv Path String Path := ⟨fun p s => p.append (ofString s)⟩

/-- The path of the directory that the last name is in. -/
def parent (p : Path) : Path :=
  { p with names := p.names.dropLast }

/-- Follows one more name, after the ones that have been followed, the
last of them first. Behind the root there is nothing to lead back to. -/
def follow (rooted : Bool) (followed : List String) (name : String) : List String :=
  if name == ".." then
    match followed with
    | [] => if rooted then [] else [name]
    | last :: before => if last == ".." then name :: followed else before
  else name :: followed

/-- **Where the path leads**: the path without ways back, except for those
that lead back from where one is. -/
def resolve (p : Path) : Path :=
  { p with names := (p.names.foldl (follow (p.slashes != 0)) []).reverse }

/-- The rest of a path that leads through the given directory. -/
def below? (directory p : Path) : Option Path :=
  if directory.slashes = p.slashes && directory.names.isPrefixOf p.names then
    some { names := p.names.drop directory.names.length }
  else none

/-- Can there be such a path? No name may hold a null character. -/
def isPossible (p : Path) : Bool :=
  p.names.all fun name => !name.toList.contains '\x00'

end Path

/-- **What stands at a path.** -/
inductive Content where
  | missing
  | directory
  | file (bytes : List UInt8)

end Reckon
