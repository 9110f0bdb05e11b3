import Mathlib.Data.List.Chain
import Mathlib.Logic.Relation
import Reckon.Proofs.Nesting
import Reckon.Proofs.Signs

/-!
# The progress of an evaluation

A run of the machine ends, whatever the text is and wherever it begins. The
measure that falls with every step says how long it can be at most; this
module says what it does meanwhile. The cursor is only ever moved forward,
inside a pass as well as from one to the next (`Cursor.Onward`). A pass uses
up a character, or its scan ends with it: a blank pass leaves a scope that
has not grown, and such a scope stalls, however often groups have
interrupted its scan before. And the number of scans is told by the number
of groups: a group costs one scan for itself and one for what is behind it
in the scope around.

The two facts about whole runs – how many scans there are, and how many
groups the tree has in the end – are about runs that begin with any stack,
because a step leads from one stack to another. What the scopes below the
innermost one still owe is in the statement: each of them is scanned again,
and each takes in one group.
-/

namespace Reckon

/-! ## Moving forward -/

namespace Cursor

/-- **A move forward**, with a reading or without. -/
inductive Forward (c : Cursor) : Cursor → Prop where
  | skip (n : Nat) : Forward c (c.skip n)
  | read (n : Nat) : Forward c (c.read n)

/-- **Moves forward lead from one cursor to another.** -/
def Onward : Cursor → Cursor → Prop :=
  Relation.ReflTransGen Forward

theorem Forward.position_le {c d : Cursor} (h : c.Forward d) : c.position ≤ d.position := by
  cases h with
  | skip n => simp [Cursor.skip, position]
  | read n => simp [Cursor.read, Cursor.skip, position]

namespace Onward

variable {c d e : Cursor}

theorem refl (c : Cursor) : Onward c c :=
  Relation.ReflTransGen.refl

theorem trans (h : Onward c d) (h' : Onward d e) : Onward c e :=
  Relation.ReflTransGen.trans h h'

theorem skip (c : Cursor) (n : Nat) : Onward c (c.skip n) :=
  .single (.skip n)

theorem read (c : Cursor) (n : Nat) : Onward c (c.read n) :=
  .single (.read n)

/-- Forward the position does not fall. -/
theorem position_le (h : Onward c d) : c.position ≤ d.position := by
  induction h with
  | refl => exact Nat.le_refl _
  | tail _ hmove ih => exact Nat.le_trans ih hmove.position_le

instance : Trans Onward Onward Onward :=
  ⟨trans⟩

end Onward

end Cursor

open Cursor (Onward)

theorem onward_skipSpaces (c : Cursor) : Onward c (skipSpaces c) :=
  .read c _

theorem Literal.onward_read (c : Cursor) : Onward c (Literal.read c).2 := by
  unfold Literal.read Cursor.consumeWhile
  dsimp only
  split
  · exact (Onward.skip c 1).trans (.read _ _)
  · exact .read c _

theorem Pass.onward_operand {o : Operator} {c d : Cursor} (h : (operand o c).cursor? = some d) :
    Onward c d := by
  refine (onward_skipSpaces c).trans ?_
  unfold operand at h
  dsimp only at h
  split at h
  · obtain rfl := Option.some.inj h
    exact .skip _ 1
  · obtain rfl := Option.some.inj h
    exact Literal.onward_read _

theorem Pass.onward_take {b : Bool} {c d : Cursor} (h : (take b c).cursor? = some d) :
    Onward c d := by
  have hskip (h : some (c.skip 1) = some d) : Onward c d := Option.some.inj h ▸ .skip c 1
  have hstay (h : some c = some d) : Onward c d := Option.some.inj h ▸ .refl c
  unfold take at h
  split at h
  · exact hstay h
  · split at h
    · exact hskip h
    · split at h
      · exact (Onward.skip c 1).trans (onward_operand h)
      · split at h
        · obtain rfl := Option.some.inj h
          exact Literal.onward_read c
        · split at h
          · exact hskip h
          · exact hstay h

namespace Scope

variable {α : Type} {s : Scope α} {c d : Cursor}

/-- **A pass moves forward.** -/
theorem onward_pass (h : (s.pass c).cursor? = some d) : Onward c d := by
  rcases s.pass_cases c with ⟨h', _⟩ | ⟨h', _⟩ | ⟨h', _⟩
  · rw [h'] at h
    exact absurd h.symm (Option.some_ne_none d)
  · rw [h'] at h
    exact absurd h.symm (Option.some_ne_none d)
  · rw [h'] at h
    exact (onward_skipSpaces c).trans (Pass.onward_take h)

/-- A pass that takes a bracket or a literal goes on in the text. -/
theorem position_lt_of_pass (h : (s.pass c).cursor? = some d) (hb : ∀ d, s.pass c ≠ .blank d) :
    c.position < d.position := by
  have htext := c.length_text
  rw [← text_pass h, d.length_text] at htext
  have hrest : d.rest.length < c.rest.length := by
    cases hp : s.pass c with
    | ended | stalled => rw [hp] at h; exact absurd h.symm (Option.some_ne_none d)
    | blank e => exact absurd hp (hb e)
    | closed e | opened o e | literal o l e =>
      rw [hp] at h
      obtain rfl := Option.some.inj h
      exact left_pass_lt hp (by simp) (by simp) (by simp)
  omega

/-- **What a pass does for the scan**: it uses up a character, or the scan ends
with it. -/
inductive Proceeds (s : Scope α) (c : Cursor) : Prop where
  /-- It goes on in the text. -/
  | consumes (d : Cursor) (cursor : (s.pass c).cursor? = some d) (lt : c.position < d.position)
  /-- It takes nothing, and the pass behind it is where the scan ends. -/
  | last (d : Cursor) (blank : s.pass c = .blank d)
    (next : { s with grown := false }.pass d = .ended ∨ { s with grown := false }.pass d = .stalled)
  /-- The scan ends before it takes anything. -/
  | over (none : s.pass c = .ended ∨ s.pass c = .stalled)

/-- **Every pass uses up a character or is the last but one**, at most. -/
theorem proceeds (s : Scope α) (c : Cursor) : s.Proceeds c := by
  cases h : s.pass c with
  | ended => exact .over (.inl h)
  | stalled => exact .over (.inr h)
  | blank d => exact .last d h (pass_of_idle rfl d)
  | closed d | opened o d | literal o l d =>
    have hcursor : (s.pass c).cursor? = some d := congrArg Pass.cursor? h
    exact .consumes d hcursor (position_lt_of_pass hcursor fun e he => by simp [h] at he)

end Scope

/-! ## The groups of a list of trees -/

namespace Tree

variable {α : Type}

theorem descendantsOf_append (k : Nat) (ts us : List (Tree α)) :
    descendantsOf k (ts ++ us) = descendantsOf k ts ++ descendantsOf k us := by
  induction ts with
  | nil => rfl
  | cons t ts ih =>
    rw [List.cons_append, descendantsOf, ih, descendantsOf, List.cons_append, List.append_assoc]

mutual

/-- How many groups a tree has is told from any depth. -/
theorem length_descendants (j k : Nat) :
    ∀ t : Tree α, (t.descendants j).length = (t.descendants k).length
  | .node _ _ groups => length_descendantsOf j k groups

theorem length_descendantsOf (j k : Nat) :
    ∀ ts : List (Tree α), (descendantsOf j ts).length = (descendantsOf k ts).length
  | [] => rfl
  | t :: ts => by
    rw [descendantsOf, descendantsOf, List.length_cons, List.length_cons, List.length_append,
      List.length_append, length_descendants (j + 1) (k + 1) t, length_descendantsOf j k ts]

end

end Tree

section Runs

variable {α : Type} [Arithmetic α]

/-! ## The places of a scan -/

namespace Scope

theorem head?_passes (s : Scope α) (c : Cursor) : (s.passes c).head? = some (s, c) := by
  rw [passes]
  split
  · rfl
  · rfl
  · rfl

/-- **A scan goes forward**, from pass to pass and to where it stops. -/
theorem isChain_passes (s : Scope α) (c : Cursor) :
    ((s.passes c).map Prod.snd ++ [(s.scan c).cursor]).IsChain Onward := by
  have hnext {s t : Scope α} {c d : Cursor} {e : Cursor} (h : (s.pass c).cursor? = some d)
      (ih : ((t.passes d).map Prod.snd ++ [e]).IsChain Onward) :
      (c :: ((t.passes d).map Prod.snd ++ [e])).IsChain Onward := by
    refine List.isChain_cons.mpr ⟨fun x hx => ?_, ih⟩
    rw [List.head?_append, List.head?_map, head?_passes] at hx
    obtain rfl := Option.some.inj hx
    exact onward_pass h
  fun_induction passes s c with
  | case1 s c o l d h ih =>
    rw [scan_of_literal h]
    exact hnext (congrArg Pass.cursor? h) ih
  | case2 s c d h ih =>
    rw [scan_of_blank h]
    exact hnext (congrArg Pass.cursor? h) ih
  | case3 s c hl hb =>
    refine List.isChain_pair.mpr ?_
    cases h : s.pass c with
    | ended => rw [scan_of_ended h]; exact .refl c
    | stalled => rw [scan_of_stalled h]; exact .refl c
    | closed d => rw [scan_of_closed h]; exact onward_pass (congrArg Pass.cursor? h)
    | opened o d => rw [scan_of_opened h]; exact onward_pass (congrArg Pass.cursor? h)
    | literal o l d => exact (hl o l d h).elim
    | blank d => exact (hb d h).elim

end Scope

/-! ## The states of a run, in a row -/

/-- How many groups have ended in a frame, with the groups in them. -/
def Frame.groupCount (f : Frame α) : Nat :=
  (Tree.descendantsOf 0 f.groups).length

theorem Frame.groupCount_attach_close (f g : Frame α) :
    (f.attach g.close).groupCount = f.groupCount + g.groupCount + 1 := by
  show (Tree.descendantsOf 0 (f.groups ++ [g.close])).length = _
  rw [Tree.descendantsOf_append, Tree.descendantsOf, Tree.descendantsOf, List.append_nil,
    List.length_append, List.length_cons, Tree.length_descendants _ 0, Tree.descendants_eq]
  rfl

namespace Machine

/-- Does the scan of the innermost scope stop because a group opens? -/
def opensGroup (m : Machine α) : Bool :=
  decide ((m.top.scope.scan m.cursor).stop = .opened)

/-- How many groups have ended in the open scopes. -/
def groupCount (m : Machine α) : Nat :=
  ((m.top :: m.below).map Frame.groupCount).sum

/-- **Where the passes of a run begin**, scan by scan. -/
def places (m : Machine α) : List Cursor :=
  m.states.flatMap fun n => (n.top.scope.passes n.cursor).map Prod.snd

/-- **What a step does to the stack**: a scope comes on top, or the innermost
one goes and is a group of the one around it. -/
theorem stack_of_next {m n : Machine α} (h : m.step = .next n) :
    (m.opensGroup = true ∧ n.below.length = m.below.length + 1 ∧ n.groupCount = m.groupCount)
      ∨ (m.opensGroup = false ∧ n.below.length + 1 = m.below.length
        ∧ n.groupCount = m.groupCount + 1) := by
  rcases m.step_cases with ⟨ho, hs⟩ | ⟨ho, outer, below, hb, hs⟩ | ⟨_, _, hs⟩
  · obtain rfl := Step.next.inj (h.symm.trans hs)
    exact .inl ⟨decide_eq_true ho, List.length_cons, Nat.zero_add _⟩
  · obtain rfl := Step.next.inj (h.symm.trans hs)
    refine .inr ⟨decide_eq_false ho, by rw [hb, List.length_cons], ?_⟩
    simp only [groupCount, hb, List.map_cons, List.sum_cons, Frame.groupCount_attach_close]
    show outer.groupCount + m.top.groupCount + 1 + _ = _
    omega
  · exact absurd (h.symm.trans hs) (by simp)

/-- The last step is the scan of the only scope on the stack. -/
theorem stack_of_done {m : Machine α} {t : Tree α} {c : Cursor} (h : m.step = .done t c) :
    m.opensGroup = false ∧ m.below.length = 0 ∧ (t.descendants 0).length = m.groupCount
      ∧ c = (m.top.scope.scan m.cursor).cursor := by
  rcases m.step_cases with ⟨_, hs⟩ | ⟨_, _, _, _, hs⟩ | ⟨ho, hb, hs⟩
  · exact absurd (h.symm.trans hs) (by simp)
  · exact absurd (h.symm.trans hs) (by simp)
  · obtain ⟨rfl, rfl⟩ := Step.done.inj (h.symm.trans hs)
    refine ⟨decide_eq_false ho, by rw [hb, List.length_nil], ?_, rfl⟩
    rw [groupCount, hb, List.map_singleton, List.sum_singleton, Tree.descendants_eq]
    rfl

/-- A step leaves the cursor where its scan does. -/
theorem cursor_of_next {m n : Machine α} (h : m.step = .next n) :
    n.cursor = (m.top.scope.scan m.cursor).cursor := by
  rcases m.step_cases with ⟨_, hs⟩ | ⟨_, outer, below, _, hs⟩ | ⟨_, _, hs⟩
  · exact Step.next.inj (h.symm.trans hs) ▸ rfl
  · exact Step.next.inj (h.symm.trans hs) ▸ rfl
  · exact absurd (h.symm.trans hs) (by simp)

theorem head?_states (m : Machine α) : m.states.head? = some m := by
  rw [states]
  rfl

/-- **A run is a chain of steps.** -/
theorem isChain_states (m : Machine α) :
    m.states.IsChain fun n n' => n.step = .next n' := by
  fun_induction run m with
  | case1 m n hstep ih =>
    rw [states_of_next hstep]
    refine List.isChain_cons.mpr ⟨fun n' hn' => ?_, ih⟩
    rw [head?_states] at hn'
    exact Option.some.inj hn' ▸ hstep
  | case2 m t c hstep =>
    rw [states_of_done hstep]
    exact List.isChain_singleton m

/-- **The last step of a run ends it**, with its result. -/
theorem step_getLast?_states (m : Machine α) :
    ∃ n ∈ m.states.getLast?, n.step = .done m.run.1 m.run.2 := by
  fun_induction run m with
  | case1 m n hstep ih =>
    obtain ⟨last, hlast, hdone⟩ := ih
    refine ⟨last, ?_, hdone⟩
    rw [states_of_next hstep, List.getLast?_cons, Option.mem_def.mp hlast]
    rfl
  | case2 m t c hstep =>
    rw [states_of_done hstep]
    exact ⟨m, rfl, hstep⟩

theorem head?_places (m : Machine α) : m.places.head? = some m.cursor := by
  obtain ⟨ns, hns⟩ := List.head?_eq_some_iff.mp m.head?_states
  rw [places, hns, List.flatMap_cons, List.head?_append, List.head?_map, Scope.head?_passes]
  rfl

/-- **A run goes forward.** -/
theorem isChain_places (m : Machine α) : (m.places ++ [m.run.2]).IsChain Onward := by
  fun_induction run m with
  | case1 m n hstep ih =>
    -- The next state stands where the scan of this one stops.
    obtain ⟨cs, hcs⟩ := List.head?_eq_some_iff.mp n.head?_places
    have hplaces : m.places = (m.top.scope.passes m.cursor).map Prod.snd ++ n.places := by
      rw [places, states_of_next hstep]
      rfl
    have hscan := m.top.scope.isChain_passes m.cursor
    rw [← cursor_of_next hstep] at hscan
    rw [hcs, List.cons_append] at ih
    rw [hplaces, hcs, List.append_assoc, List.cons_append]
    exact List.isChain_split.mpr ⟨hscan, ih⟩
  | case2 m t c hstep =>
    obtain ⟨_, _, _, hcursor⟩ := stack_of_done hstep
    rw [places, states_of_done hstep, List.flatMap_singleton, hcursor]
    exact m.top.scope.isChain_passes m.cursor

/-- **A step makes the measure smaller**, the last one too: then no scope is
open. -/
theorem falls (m : Machine α) :
    match m.step with
    | .next n => n.measure < m.measure
    | .done _ d => 2 * d.rest.length < m.measure := by
  split
  · rename_i hstep
    exact measure_lt_of_step hstep
  · rename_i d hstep
    obtain ⟨_, _, _, hcursor⟩ := stack_of_done hstep
    have hle := Scope.length_rest_scan_le m.top.scope m.cursor
    rw [hcursor, measure]
    omega

/-- **Every group that opens costs two scans**, and every scope around the
innermost one costs another. -/
theorem length_states (m : Machine α) :
    m.states.length = 2 * m.states.countP opensGroup + m.below.length + 1 := by
  fun_induction run m with
  | case1 m n hstep ih =>
    rw [states_of_next hstep, List.length_cons, List.countP_cons, ih]
    rcases stack_of_next hstep with ⟨ho, hbelow, _⟩ | ⟨ho, hbelow, _⟩
    · rw [ho, if_pos rfl]
      omega
    · rw [ho, if_neg Bool.false_ne_true]
      omega
  | case2 m t c hstep =>
    obtain ⟨ho, hbelow, _⟩ := stack_of_done hstep
    rw [states_of_done hstep, List.countP_singleton, ho, hbelow]
    rfl

/-- **Every group that opens is a group of the tree**, and so is every scope
around which there is another. -/
theorem length_descendants_run (m : Machine α) :
    (m.run.1.descendants 0).length
      = m.groupCount + m.below.length + m.states.countP opensGroup := by
  fun_induction run m with
  | case1 m n hstep ih =>
    rw [states_of_next hstep, List.countP_cons, ih]
    rcases stack_of_next hstep with ⟨ho, hbelow, hcount⟩ | ⟨ho, hbelow, hcount⟩
    · rw [ho, if_pos rfl]
      omega
    · rw [ho, if_neg Bool.false_ne_true]
      omega
  | case2 m t c hstep =>
    obtain ⟨ho, hbelow, hcount, _⟩ := stack_of_done hstep
    rw [states_of_done hstep, List.countP_singleton, ho, hbelow, hcount]
    rfl

/-- **A run that ends with a result**, and what it does until then. -/
structure Ends (m : Machine α) (r : Tree α × Cursor) : Prop where
  /-- It begins with the machine, … -/
  first : m.states.head? = some m
  /-- goes on from step to step … -/
  steps : m.states.IsChain fun n n' => n.step = .next n'
  /-- and comes to a last step, which has the result. -/
  last : ∃ n ∈ m.states.getLast?, n.step = .done r.1 r.2
  /-- From pass to pass and to its end the cursor is moved forward only, … -/
  forward : (m.places ++ [r.2]).IsChain Onward
  /-- so that its position never falls. -/
  rises : ((m.places ++ [r.2]).map Cursor.position).Pairwise (· ≤ ·)
  /-- Twice the characters left plus the scopes on the stack falls with every
  step, the last one too, which leaves no scope there. -/
  falls : ∀ n ∈ m.states,
    match n.step with
    | .next n' => n'.measure < n.measure
    | .done _ d => 2 * d.rest.length < n.measure
  /-- Every pass uses up a character, or its scan ends with it. -/
  proceeds : ∀ n ∈ m.states, ∀ q ∈ n.top.scope.passes n.cursor, q.1.Proceeds q.2
  /-- There are two scans for every group that opens, and one more. -/
  scans : m.states.length = 2 * m.states.countP opensGroup + 1
  /-- The groups that open are those of the tree. -/
  groups : (r.1.descendants 0).length = m.states.countP opensGroup

end Machine

/-- **Every evaluation ends**, of a group or of a whole text, from any place of
any text on. -/
theorem evaluate_ends (closesGroup : Bool) (c : Cursor) :
    let s : Scope α := { closesGroup := closesGroup }
    Machine.Ends { cursor := c, top := { scope := s } } (s.evaluate c) := by
  intro s
  let m : Machine α := { cursor := c, top := { scope := s } }
  show m.Ends m.run
  refine {
    first := m.head?_states
    steps := m.isChain_states
    last := m.step_getLast?_states
    forward := m.isChain_places
    rises := ?_
    falls := fun n _ => n.falls
    proceeds := fun n _ q _ => q.1.proceeds q.2
    scans := m.length_states
    groups := ?_ }
  · rw [List.pairwise_map]
    exact m.isChain_places.pairwise.imp Onward.position_le
  · -- Nothing is around the scope, and it has no groups yet.
    rw [m.length_descendants_run]
    exact Nat.zero_add _

end Runs

end Reckon
