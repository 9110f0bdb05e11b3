import Reckon.Scope

/-!
# Evaluated expressions

An evaluated expression is a tree of scopes: each scope with the value it
reduced to and, in the order of their brackets, the groups inside it.
-/

namespace Reckon

/-- **An evaluated scope**, with the groups inside it. -/
inductive Tree (α : Type) where
  /-- A scope as scanning and reduction left it, its value, and its
  groups in order. -/
  | node (scope : Scope α) (value : Option α) (groups : List (Tree α))
deriving Repr

namespace Tree

variable {α : Type}

/-- The scope at the root. -/
def scope : Tree α → Scope α
  | node s _ _ => s

/-- The value of the whole, if it has one. -/
def value : Tree α → Option α
  | node _ v _ => v

/-- The groups right inside the root's scope. -/
def groups : Tree α → List (Tree α)
  | node _ _ gs => gs

/-- The value as a number: a missing one is undefined. -/
def number [Arithmetic α] (t : Tree α) : α :=
  t.value.getD Arithmetic.undefined

mutual

/-- **Has every group found its closing bracket?** -/
def isBalanced : Tree α → Bool
  | node s _ groups => (!s.closesGroup || s.closed) && areBalanced groups

/-- Are all of the trees balanced? -/
def areBalanced : List (Tree α) → Bool
  | [] => true
  | t :: ts => t.isBalanced && areBalanced ts

end

end Tree

end Reckon
