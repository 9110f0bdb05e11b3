import Reckon.Cursor.Operation
import Reckon.Machine
import Reckon.Text.Blank

/-!
# Sessions

A session takes an evaluation apart: cursors are moved by hand, and
scopes are scanned, filled, attached and evaluated in any order. Scopes
that a session has made are *nodes* and have numbers; the groups that an
evaluation makes on its way have none.

Several nodes read from one cursor. A node made from a text of its own
brings a new cursor, which the session goes on with, while older nodes
keep theirs.
-/

namespace Reckon

/-- **A group inside a node.** -/
inductive Group (α : Type) where
  /-- A node of the session, which may still change. -/
  | node (number : Nat)
  /-- A group that an evaluation made. -/
  | ended (t : Tree α)

/-- **A node of a session.** -/
structure Node (α : Type) where
  /-- The number of the cursor that the node reads from. -/
  cursor : Nat
  scope : Scope α
  groups : List (Group α) := []
  /-- The value, once there is one. -/
  value : Option α := none
  /-- Has the node been evaluated? It is not evaluated twice. -/
  evaluated : Bool := false

/-- **A session.** -/
structure Session (α : Type) where
  /-- The cursors, in the order in which they came. -/
  cursors : List Cursor
  /-- The number of the cursor that the session is at. -/
  current : Nat := 0
  /-- The nodes, by their numbers. -/
  nodes : List (Node α) := []

/-- **A step of a session.** -/
inductive SessionStep (α : Type) where
  /-- Asks something of the current cursor. -/
  | cursor (op : Cursor.Operation)
  /-- Makes a node on the current cursor. -/
  | newNode (closesGroup : Bool)
  /-- Makes a node on a cursor of its own. -/
  | newNodeOn (text : String)
  /-- Evaluates a node. -/
  | evaluate (node : Nat)
  /-- Is a node balanced? -/
  | isBalanced (node : Nat)
  /-- Shows a node's terms and value. -/
  | describe (node : Nat)
  /-- Reads a literal where a node is. -/
  | readLiteral (node : Nat)
  /-- Adds a term to a node. -/
  | push (node : Nat) (operator : Option Operator) (value : Option α)
  /-- Scans a node until a group opens or the scan ends. -/
  | scan (node : Nat)
  /-- Takes one node into another as its open group. -/
  | attach (node group : Nat)
  /-- Shows a node with all the groups in it. -/
  | dump (node : Nat)

/-- **What a step answers.** -/
inductive SessionReply (α : Type) where
  | cursor (r : Cursor.Reply)
  /-- The number of a node, if there is one, or a count. -/
  | number (n : Option Nat)
  | value (x : α)
  | flag (b : Bool)
  | described (terms : List (Term α)) (value : Option α)
  | dumped (t : Tree α)

/-- Why a step cannot be taken. -/
inductive SessionError where
  /-- There is no node of that number. -/
  | noSuchNode (number : Nat)
deriving Repr, DecidableEq

/-- What the error is reported as. -/
def SessionError.message : SessionError → String
  | noSuchNode _ => "list index out of range"

namespace Node

variable {α : Type}

/-- The node as a tree, with the trees of the nodes inside it. -/
def tree (trees : Nat → Option (Tree α)) (n : Node α) : Tree α :=
  .node n.scope n.value (n.groups.filterMap fun
    | .node number => trees number
    | .ended t => some t)

/-- The value as a number: a missing one is undefined. -/
def number [Arithmetic α] (n : Node α) : α :=
  n.value.getD Arithmetic.undefined

/-- **Evaluates the node** from a cursor on. The groups that it makes are
added to those it has. -/
def evaluate [Arithmetic α] (n : Node α) (c : Cursor) : Node α × Cursor :=
  let (t, d) := n.scope.evaluate c
  ({ n with
      scope := t.scope
      groups := n.groups ++ t.groups.map .ended
      value := t.value
      evaluated := true }, d)

end Node

namespace Session

variable {α : Type}

/-- A session at the start of a text, without nodes. -/
def start (text : String) : Session α where
  cursors := [Cursor.ofList text.toList]

/-- The cursor of a number. -/
def cursorAt (s : Session α) (i : Nat) : Cursor :=
  s.cursors.getD i (Cursor.ofList [])

/-- The cursor that the session is at. -/
def cursor (s : Session α) : Cursor :=
  s.cursorAt s.current

/-- Sets the cursor of a number. -/
def setCursor (i : Nat) (c : Cursor) (s : Session α) : Session α :=
  { s with cursors := s.cursors.set i c }

/-- Sets the node of a number. -/
def setNode (i : Nat) (n : Node α) (s : Session α) : Session α :=
  { s with nodes := s.nodes.set i n }

/-- Adds a node, whose number is the number of nodes before. -/
def addNode (n : Node α) (s : Session α) : Session α :=
  { s with nodes := s.nodes ++ [n] }

/-- The node of a number. -/
def node (s : Session α) (i : Nat) : Except SessionError (Node α) :=
  match s.nodes[i]? with
  | some n => .ok n
  | none => .error (.noSuchNode i)

/-- The trees of the nodes from number `first` on. The groups of a node
have greater numbers than it, so their trees come first. -/
def treesFrom (first : Nat) : List (Node α) → List (Tree α)
  | [] => []
  | n :: ns =>
    let later := treesFrom (first + 1) ns
    n.tree (fun i => if first < i then later[i - first - 1]? else none) :: later

/-- **The node of a number as a tree.** -/
def tree (s : Session α) (i : Nat) : Except SessionError (Tree α) :=
  match (treesFrom 0 s.nodes)[i]? with
  | some t => .ok t
  | none => .error (.noSuchNode i)

variable [Arithmetic α]

/-- **Takes a step.** -/
def step (s : Session α) :
    SessionStep α → Except SessionError (SessionReply α × Session α)
  | .cursor op =>
    let (reply, c) := s.cursor.perform op
    .ok (.cursor reply, s.setCursor s.current c)
  | .newNode closesGroup =>
    .ok (.number (some s.nodes.length),
      s.addNode { cursor := s.current, scope := { closesGroup := closesGroup } })
  | .newNodeOn text =>
    let fresh := s.cursors.length
    let s := { s with
      cursors := s.cursors ++ [Cursor.ofList (Text.strip text.toList)]
      current := fresh }
    .ok (.number (some s.nodes.length), s.addNode { cursor := fresh, scope := .outermost })
  | .evaluate i => do
    let n ← s.node i
    if n.evaluated then return (.value n.number, s)
    else
      let (n, c) := n.evaluate (s.cursorAt n.cursor)
      return (.value n.number, (s.setNode i n).setCursor n.cursor c)
  | .isBalanced i => do
    let t ← s.tree i
    return (.flag t.isBalanced, s)
  | .describe i => do
    let n ← s.node i
    return (.described n.scope.terms n.value, s)
  | .readLiteral i => do
    let n ← s.node i
    let (l, c) := Literal.read (s.cursorAt n.cursor)
    return (.value l.value, s.setCursor n.cursor c)
  | .push i operator value => do
    let n ← s.node i
    let scope := n.scope.push { operator := operator, value := value }
    return (.number (some scope.terms.length), s.setNode i { n with scope := scope })
  | .scan i => do
    let n ← s.node i
    let scan := n.scope.scan (s.cursorAt n.cursor)
    let s := s.setCursor n.cursor scan.cursor
    if scan.stop = .opened then
      let number := s.nodes.length
      let n := { n with scope := scan.scope, groups := n.groups ++ [.node number] }
      return (.number (some number),
        (s.setNode i n).addNode { cursor := n.cursor, scope := .group })
    else
      return (.number none, s.setNode i { n with scope := scan.scope })
  | .attach i j => do
    let n ← s.node i
    let group ← s.node j
    let scope := n.scope.attach group.value
    return (.number (some scope.terms.length), s.setNode i { n with scope := scope })
  | .dump i => do
    let t ← s.tree i
    return (.dumped t, s)

/-- **Takes steps in order**: what each answers, and the session after
it. -/
def run (s : Session α) :
    List (SessionStep α) → Except SessionError (List (SessionReply α × Session α))
  | [] => .ok []
  | step :: steps => do
    let (reply, next) ← s.step step
    let others ← next.run steps
    return (reply, next) :: others

end Session

end Reckon
