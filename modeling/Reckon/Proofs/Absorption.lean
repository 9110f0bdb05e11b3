import Mathlib.Data.List.Basic
import Mathlib.Data.List.TakeWhile
import Reckon.Proofs.Levels

/-!
# What a reduction changes

A reduction works on the terms of its scope, and leaves them changed. No term
goes and none moves, and each keeps its node; a term that others are folded into
takes another value, and a term that is folded keeps the value that it had by then.

Which value that is can be told from the list alone. A term takes in the terms
behind it as far as they bind tighter than it does, and what it is left with is
what this run comes to (`IsLeftOf.takes_in`). How tight a product operator binds
depends on where it first occurs (`IsLeftOf.binds_by_first`). It does not matter
when a term takes in the others: a term that is folded away keeps what it has taken
in before, and all that had bound tighter than itself and was folded first.

The proof follows the contractions. Each of them leaves some runs, and what the
runs settle to is the same before it and behind it, for the terms that stand and
for those that are folded away (`settled_contractAfter`). What makes it so is
that a list and what a contraction leaves of it agree on how tight the operators
that are left bind (`tightness_fuse`).
-/

namespace Reckon

variable {α ν : Type}

/-! ## How tight an operator binds -/

/-- **How tight an operator binds** under levels that are given from the loosest
on. An additive one is at none of the levels and binds less than all of them,
and so does a missing one. -/
def tightness (l : List Operator) : Option Operator → Nat
  | some o => if o ∈ l then l.idxOf o + 1 else 0
  | none => 0

/-- **The terms that a term takes in**: those behind it, as far as they bind
tighter. -/
def takenIn (l : List Operator) (t : Term α ν) (ts : List (Term α ν)) : List (Term α ν) :=
  ts.takeWhile fun u => tightness l t.operator < tightness l u.operator

theorem tightness_eq_zero {l : List Operator} {o : Option Operator} (h : ∀ q ∈ l, o ≠ some q) :
    tightness l o = 0 := by
  cases o with
  | none => rfl
  | some o => exact if_neg fun hmem => h o hmem rfl

/-- Of levels only those up to the operator's own count. -/
theorem tightness_append {m n : List Operator} {o : Option Operator} (h : ∀ q ∈ n, o ≠ some q) :
    tightness (m ++ n) o = tightness m o := by
  cases o with
  | none => rfl
  | some o =>
    have hn : o ∉ n := fun hmem => h o hmem rfl
    rw [tightness, tightness]
    by_cases hm : o ∈ m
    · rw [if_pos (List.mem_append_left n hm), if_pos hm, List.idxOf_append_of_mem hm]
    · rw [if_neg hm, if_neg fun hmem => (List.mem_append.mp hmem).elim hm hn]

theorem tightness_le_length (l : List Operator) (o : Option Operator) :
    tightness l o ≤ l.length := by
  cases o with
  | none => exact Nat.zero_le _
  | some o =>
    rw [tightness]
    split
    · rename_i h
      exact List.idxOf_lt_length_of_mem h
    · exact Nat.zero_le _

/-- The first operator behind levels that it is not in. -/
theorem tightness_append_cons {m n : List Operator} {o : Operator} (h : o ∉ m) :
    tightness (m ++ o :: n) (some o) = m.length + 1 := by
  rw [tightness, if_pos (List.mem_append_right m List.mem_cons_self), List.idxOf_append_of_notMem h,
    List.idxOf_cons_self]

/-- What begins a summand binds less than every level. -/
theorem tightness_of_startsSummand {o : Option Operator} (h : startsSummand o = true)
    (ts : List (Term α ν)) : tightness (levels ts) o = 0 := by
  refine tightness_eq_zero fun q hq hoq => ?_
  subst hoq
  rcases List.mem_append.mp hq with hq | hq
  · have hone := (mem_products.mp (List.mem_reverse.mp hq)).2
    rw [startsSummand, hone] at h
    exact absurd h (by decide)
  · rw [List.mem_singleton.mp hq] at h
    exact absurd h (by decide)

/-- **What begins a summand binds no tighter than anything**, and less than the product
operators that occur. -/
theorem tightness_le_of_startsSummand {o : Option Operator} (h : startsSummand o = true)
    (ts : List (Term α ν)) :
    (∀ p, tightness (levels ts) o ≤ tightness (levels ts) p)
      ∧ ∀ q ∈ products ts, tightness (levels ts) o < tightness (levels ts) (some q) := by
  rw [tightness_of_startsSummand h]
  refine ⟨fun p => Nat.zero_le _, fun q hq => ?_⟩
  have hmem : q ∈ levels ts := List.mem_append_left _ (List.mem_reverse.mpr hq)
  rw [tightness, if_pos hmem]
  exact Nat.succ_pos _

/-- Under the levels of a list a power binds tightest. -/
theorem tightness_lt_pow {ts : List (Term α ν)} {o : Option Operator} (h : o ≠ some .pow) :
    tightness (levels ts) o < tightness (levels ts) (some .pow) := by
  have hpow : .pow ∉ (products ts).reverse := fun hmem =>
    absurd (mem_products.mp (List.mem_reverse.mp hmem)).2 (by decide)
  rw [levels, tightness_append_cons hpow, tightness_append fun q hq hoq => ?_]
  · exact Nat.lt_succ_of_le (tightness_le_length _ _)
  · exact h (List.mem_singleton.mp hq ▸ hoq)

/-- A product operator stands among the products behind those that occur before it. -/
theorem exists_products_eq {ts : List (Term α ν)} {os qs : List Operator} {o : Operator}
    (hsplit : operators ts = os ++ o :: qs) (ho : o.precedence = 1) (hos : o ∉ os) :
    ∃ later, products ts = (os.filter fun p => p.precedence == 1).eraseDups ++ o :: later
      ∧ o ∉ later := by
  rw [products, hsplit, List.filter_append, List.filter_cons_of_pos (by simp [ho]),
    List.eraseDups_append, List.cons_removeAll, if_pos (by simp [hos]), List.eraseDups_cons]
  refine ⟨_, rfl, fun hlater => ?_⟩
  rw [List.mem_eraseDups, List.mem_filter] at hlater
  simp at hlater

/-- An operator that occurs in front of a product operator binds tighter, if it is one
itself. -/
theorem tightness_lt_of_first {ts : List (Term α ν)} {o q : Operator} (ho : o.precedence = 1)
    (hq : q.precedence = 1) (h : (operators ts).idxOf o < (operators ts).idxOf q) :
    tightness (levels ts) (some q) < tightness (levels ts) (some o) := by
  have hmem : o ∈ operators ts :=
    List.idxOf_lt_length_iff.mp (Nat.lt_of_lt_of_le h List.idxOf_le_length)
  obtain ⟨os, qs, hsplit, hoos⟩ := List.eq_append_cons_of_mem hmem
  have hqos : q ∉ os := by
    intro hqos
    rw [hsplit, List.idxOf_append_of_notMem hoos, List.idxOf_cons_self,
      List.idxOf_append_of_mem hqos] at h
    exact absurd (List.idxOf_lt_length_of_mem hqos) (Nat.lt_asymm h)
  have hne : q ≠ o := fun hqo => Nat.lt_irrefl _ (hqo ▸ h)
  obtain ⟨later, hproducts, hlater⟩ := exists_products_eq hsplit ho hoos
  have hlevels : levels ts = later.reverse
      ++ o :: ((os.filter fun p => p.precedence == 1).eraseDups.reverse ++ [.pow]) := by
    rw [levels, hproducts, List.reverse_append, List.reverse_cons, List.append_assoc,
      List.append_assoc]
    rfl
  rw [hlevels, tightness_append_cons (fun h => hlater (List.mem_reverse.mp h)),
    tightness_append fun p hp hqp => ?_]
  · exact Nat.lt_succ_of_le (tightness_le_length _ _)
  · obtain rfl := Option.some.inj hqp
    rcases List.mem_cons.mp hp with hp | hp
    · exact hne hp
    · rcases List.mem_append.mp hp with hp | hp
      · exact hqos (List.mem_filter.mp (List.mem_eraseDups.mp (List.mem_reverse.mp hp))).1
      · obtain rfl := List.mem_singleton.mp hp
        exact absurd hq (by decide)

/-- A product operator that does not occur binds no tighter than what begins a
summand. -/
theorem tightness_of_not_mem {ts : List (Term α ν)} {o : Operator} (ho : o.precedence = 1)
    (h : o ∉ operators ts) : tightness (levels ts) (some o) = 0 := by
  refine tightness_eq_zero fun q hq hoq => ?_
  obtain rfl := Option.some.inj hoq
  rcases List.mem_append.mp hq with hq | hq
  · exact h (mem_products.mp (List.mem_reverse.mp hq)).1
  · obtain rfl := List.mem_singleton.mp hq
    exact absurd ho (by decide)

/-- **Of two product operators the one that occurs first binds tighter.** -/
theorem tightness_lt_iff_first {ts : List (Term α ν)} {o q : Operator} (ho : o.precedence = 1)
    (hq : q.precedence = 1) :
    tightness (levels ts) (some q) < tightness (levels ts) (some o)
      ↔ (operators ts).idxOf o < (operators ts).idxOf q := by
  refine ⟨fun h => Nat.lt_of_not_le fun hle => ?_, tightness_lt_of_first ho hq⟩
  rcases Nat.lt_or_eq_of_le hle with hlt | heq
  · exact absurd h (Nat.lt_asymm (tightness_lt_of_first hq ho hlt))
  · by_cases hmem : q ∈ operators ts
    · exact Nat.lt_irrefl _ ((List.idxOf_inj hmem).mp heq ▸ h)
    · have hmem' : o ∉ operators ts := by
        rw [← List.idxOf_eq_length_iff, ← heq, List.idxOf_eq_length_iff]
        exact hmem
      rw [tightness_of_not_mem hq hmem, tightness_of_not_mem ho hmem'] at h
      exact Nat.lt_irrefl _ h

/-! ## How tight the operators bind behind a contraction -/

section Fusing

variable [Arithmetic α] {ts : List (Term α ν)} {o : Operator}

/-- **The levels of two lists agree below the tightest operator** of the first,
if the second is what its contraction leaves. Above it there is at most the
power level, and only where no power is left. -/
theorem exists_levels_fuse (h : tightest ts = some o) (t : Term α ν) :
    ∃ m n n', levels ts = m ++ o :: n ∧ levels (fuse o t ts).folded = m ++ n' ∧ o ∉ m
      ∧ ∀ q ∈ operators ts, q ≠ o → q ∉ n ∧ q ∉ n' := by
  rcases tightest_cases h with rfl | ⟨hpow, os, hos⟩
  · refine ⟨(products ts).reverse, [], [.pow], rfl, ?_, fun hmem => ?_, fun q _ hne => ?_⟩
    · rw [levels, products_fuse_pow]
    · exact absurd (mem_products.mp (List.mem_reverse.mp hmem)).2 (by decide)
    · exact ⟨List.not_mem_nil, fun hmem => hne (List.mem_singleton.mp hmem)⟩
  · have hcons := products_eq_cons hos t
    refine ⟨(products (fuse o t ts).folded).reverse, [.pow], [.pow], ?_, rfl, fun hmem => ?_,
      fun q hq _ => ?_⟩
    · rw [levels, hcons, List.reverse_cons, List.append_assoc]
      rfl
    · have hleft := (mem_products.mp (List.mem_reverse.mp hmem)).1
      exact (mem_operators_fuse.mp hleft).2 rfl
    · have hne : q ∉ [Operator.pow] := fun hmem => hpow (List.mem_singleton.mp hmem ▸ hq)
      exact ⟨hne, hne⟩

/-- **How tight the other operators bind is told by either list**, the one that a
contraction finds and the one that it leaves, and the operator contracted is the
tightest. -/
theorem tightness_fuse (h : tightest ts = some o) (t : Term α ν) {p : Option Operator}
    (hp : p ≠ some o) (hmem : startsSummand p = true ∨ ∃ u ∈ ts, u.operator = p) :
    tightness (levels (fuse o t ts).folded) p = tightness (levels ts) p
      ∧ tightness (levels ts) p < tightness (levels ts) (some o) := by
  obtain ⟨m, n, n', hfound, hleft, ho, hothers⟩ := exists_levels_fuse h t
  have htight : tightness (levels ts) (some o) = m.length + 1 := by
    rw [hfound, tightness_append_cons ho]
  cases hq : startsSummand p with
  | true =>
    rw [tightness_of_startsSummand hq, tightness_of_startsSummand hq, htight]
    exact ⟨rfl, Nat.succ_pos _⟩
  | false =>
    cases p with
    | none => exact absurd hq (by decide)
    | some q =>
      have hne : q ≠ o := fun hqo => hp (congrArg some hqo)
      have hop : q ∈ operators ts :=
        mem_operators.mpr (hmem.resolve_left fun h => Bool.false_ne_true (hq.symm.trans h))
      obtain ⟨hn, hn'⟩ := hothers q hop hne
      have hcons : tightness (levels ts) (some q) = tightness m (some q) := by
        rw [hfound]
        refine tightness_append fun p hp hqp => ?_
        rcases List.mem_cons.mp hp with rfl | hp
        · exact hne (Option.some.inj hqp)
        · exact hn (Option.some.inj hqp ▸ hp)
      have hfuse : tightness (levels (fuse o t ts).folded) (some q) = tightness m (some q) := by
        rw [hleft]
        exact tightness_append fun p hp hqp => hn' (Option.some.inj hqp ▸ hp)
      rw [hfuse, hcons, htight]
      exact ⟨rfl, Nat.lt_succ_of_le (tightness_le_length _ _)⟩

/-- Nothing in a list binds tighter than the operator that is contracted next. -/
theorem tightness_le_of_tightest (h : tightest ts = some o) {u : Term α ν} (hu : u ∈ ts) :
    tightness (levels ts) u.operator ≤ tightness (levels ts) (some o) := by
  by_cases huo : u.operator = some o
  · exact Nat.le_of_eq (congrArg _ huo)
  · exact Nat.le_of_lt (tightness_fuse h u huo (.inr ⟨u, hu, rfl⟩)).2

/-! ## What a term takes in -/

omit [Arithmetic α] in
/-- The first part of a split ends where the splitting begins. -/
theorem segments_fst (p : Option Operator → Bool) (ts : List (Term α ν)) :
    (segments p ts).1 = ts.takeWhile fun u => !p u.operator := by
  induction ts with
  | nil => rfl
  | cons t ts ih =>
    cases h : p t.operator with
    | true => rw [segments_cons_of_pos h, List.takeWhile_cons_of_neg (by simp [h])]
    | false => rw [segments_cons_of_neg h, List.takeWhile_cons_of_pos (by simp [h]), ih]

omit [Arithmetic α] in
/-- A term takes nothing in where the next one binds no tighter. -/
theorem takenIn_eq_nil {l : List Operator} {t : Term α ν} {us : List (Term α ν)}
    (h : ∀ u, us.head? = some u → tightness l u.operator ≤ tightness l t.operator) :
    takenIn l t us = [] := by
  cases us with
  | nil => rfl
  | cons u us => exact List.takeWhile_cons_of_neg (by simpa using h u rfl)

omit [Arithmetic α] in
/-- What is taken in is told by which terms bind tighter. -/
theorem takenIn_congr {l l' : List Operator} {t t' : Term α ν} {us : List (Term α ν)}
    (h : ∀ u ∈ us, tightness l t.operator < tightness l u.operator
      ↔ tightness l' t'.operator < tightness l' u.operator) :
    takenIn l t us = takenIn l' t' us := by
  induction us with
  | nil => rfl
  | cons u us ih =>
    rw [takenIn, takenIn, List.takeWhile_cons, List.takeWhile_cons,
      decide_eq_decide.mpr (h u List.mem_cons_self)]
    refine if_congr Iff.rfl (congrArg (u :: ·) (ih fun w hw => ?_)) rfl
    exact h w (List.mem_cons_of_mem _ hw)

omit [Arithmetic α] in
/-- What is taken in begins no summand. -/
theorem not_startsSummand_of_mem_takenIn {t u : Term α ν} {us : List (Term α ν)}
    (hu : u ∈ takenIn (levels ts) t us) : startsSummand u.operator = false := by
  refine Bool.eq_false_iff.mpr fun hstarts => ?_
  have hlt := List.mem_takeWhile_imp (show u ∈ us.takeWhile _ from hu)
  rw [tightness_of_startsSummand hstarts] at hlt
  exact absurd (of_decide_eq_true hlt) (Nat.not_lt_zero _)

/-- What a contraction leaves has an operator of the list, and not the one
contracted. -/
theorem operator_of_mem_fuse {t u : Term α ν} {us : List (Term α ν)}
    (hu : u ∈ (fuse o t us).folded) :
    u.operator ≠ some o
      ∧ (startsSummand u.operator = true ∨ ∃ w ∈ us, w.operator = u.operator) := by
  cases hq : u.operator with
  | none => exact ⟨nofun, .inl rfl⟩
  | some q =>
    obtain ⟨hmem, hne⟩ := mem_operators_fuse.mp (mem_operators.mpr ⟨u, hu, hq⟩)
    exact ⟨fun h => hne (Option.some.inj h), .inr (mem_operators.mp hmem)⟩

/-- **A term that a contraction leaves standing comes to the same behind it**,
with what it takes in of the terms that are left. -/
theorem collapse_takenIn_fuse (h : tightest ts = some o) (t₀ t : Term α ν) {us : List (Term α ν)}
    (hus : ∀ u ∈ us, u ∈ ts) (hto : t.operator ≠ some o)
    (ht : startsSummand t.operator = true ∨ t ∈ ts) :
    let l := levels (fuse o t₀ ts).folded
    let r := fuse o t us
    Run.collapse l ⟨r.head, takenIn l r.head r.folded⟩
      = Run.collapse (levels ts) ⟨t, takenIn (levels ts) t us⟩ := by
  intro l r
  obtain ⟨htop, hlt⟩ := tightness_fuse h t₀ hto (ht.imp_right fun hmem => ⟨t, hmem, rfl⟩)
  let stops : Option Operator → Bool := fun q =>
    !decide (tightness (levels ts) t.operator < tightness (levels ts) q)
  have hfound : (segments stops us).1 = takenIn (levels ts) t us := by
    rw [segments_fst, takenIn]
    simp only [stops, Bool.not_not]
  have hleft : (segments stops r.folded).1 = takenIn l r.head r.folded := by
    have hcongr : takenIn (levels ts) t r.folded = takenIn l r.head r.folded := by
      refine takenIn_congr fun u hu => ?_
      obtain ⟨huo, hmem⟩ := operator_of_mem_fuse hu
      rw [operator_head_fuse, htop, (tightness_fuse h t₀ huo (hmem.imp_right ?_)).1]
      rintro ⟨w, hw, hwu⟩
      exact ⟨w, hus w hw, hwu⟩
    rw [segments_fst, ← hcongr, takenIn]
    simp only [stops, Bool.not_not]
  obtain ⟨hfuse, -⟩ := segments_fuse (p := stops) (o := o)
    (by rw [show stops (some o) = !decide _ from rfl, decide_eq_true hlt]; rfl) t us
  rw [← hleft, hfuse, hfound]
  refine Run.collapse_levels_fuse h t₀ (r := ⟨t, takenIn (levels ts) t us⟩) fun u hu =>
    ⟨hus u ?_, not_startsSummand_of_mem_takenIn hu⟩
  exact (List.takeWhile_sublist _).subset hu

end Fusing

/-! ## The terms that a reduction leaves -/

/-- **The terms that runs settle to**: a term that stands comes to itself with what
it takes in of the others, and those that were folded stay as they are. -/
def settled [Arithmetic α] (l : List Operator) : List (Run α ν) → List (Term α ν)
  | [] => []
  | r :: rs =>
    Run.collapse l ⟨r.head, takenIn l r.head (rs.map Run.head)⟩ :: r.folded ++ settled l rs

variable [Arithmetic α]

/-- A term that nothing behind binds tighter than settles to itself. -/
theorem settled_cons_of_le {l : List Operator} {r : Run α ν} {rs : List (Run α ν)}
    (h : ∀ s ∈ rs, tightness l s.head.operator ≤ tightness l r.head.operator) :
    settled l (r :: rs) = r.terms ++ settled l rs := by
  have htaken : takenIn l r.head (rs.map Run.head) = [] := by
    refine takenIn_eq_nil fun u hu => ?_
    obtain ⟨s, hs, rfl⟩ := List.mem_map.mp (List.mem_of_mem_head? hu)
    exact h s hs
  rw [settled, htaken]
  show Run.collapse _ (.single r.head) :: _ ++ _ = _
  rw [Run.collapse_single]
  rfl

/-- Where every term begins a summand, nothing is taken in. -/
theorem settled_of_forall_startsSummand {ts : List (Term α ν)} {rs : List (Run α ν)}
    (h : ∀ r ∈ rs, startsSummand r.head.operator = true) :
    settled (levels ts) rs = rs.flatMap Run.terms := by
  induction rs with
  | nil => rfl
  | cons r rs ih =>
    have hrs : ∀ s ∈ rs, startsSummand s.head.operator = true := fun s hs =>
      h s (List.mem_cons_of_mem _ hs)
    rw [settled_cons_of_le fun s hs => ?_, ih hrs, List.flatMap_cons]
    rw [tightness_of_startsSummand (hrs s hs)]
    exact Nat.zero_le _

/-- **One contraction leaves what the runs settle to.** The terms that it folds
have taken everything in that they can, and what is in front of them settles to
the same as before. -/
theorem settled_contractAfter {ts : List (Term α ν)} {o : Operator} (h : tightest ts = some o)
    (t : Term α ν) (left : Run α ν) {rs : List (Run α ν)} (hrs : ∀ r ∈ rs, r.head ∈ ts) :
    (contractAfter (some o) left rs).1.folded
        ++ settled (levels (fuse o t ts).folded) (contractAfter (some o) left rs).2
      = left.folded ++ settled (levels ts) rs := by
  induction rs generalizing left with
  | nil => rfl
  | cons r rs ih =>
    have hmem : ∀ s ∈ rs, s.head ∈ ts := fun s hs => hrs s (List.mem_cons_of_mem _ hs)
    rw [contractAfter]
    by_cases hro : r.head.operator = some o
    · -- The term is folded, and it has nothing left to take in.
      have hle : ∀ s ∈ rs, tightness (levels ts) s.head.operator
          ≤ tightness (levels ts) r.head.operator := by
        rw [hro]
        exact fun s hs => tightness_le_of_tightest h (hmem s hs)
      rw [if_pos hro, ih (left.absorb r) hmem, settled_cons_of_le hle, Run.absorb,
        List.append_assoc]
    · -- The term stands, and the contraction goes on behind it.
      have hstands := collapse_takenIn_fuse h t r.head (List.forall_mem_map.mpr hmem) hro
        (.inr (hrs r List.mem_cons_self))
      rw [heads_contractAfter] at hstands
      rw [if_neg hro]
      show left.folded ++ settled _ (_ :: _) = _
      rw [settled, settled, hstands, List.cons_append, List.cons_append, ih r hmem]

/-- **What the contractions leave** is what each term settles to. -/
theorem terms_contracted (first : Run α ν) (others : List (Run α ν))
    (hfirst : startsSummand first.head.operator = true) :
    ((contracted first others).1 :: (contracted first others).2).flatMap Run.terms
      = settled (levels (others.map Run.head)) (first :: others) := by
  induction first, others using contracted_induction with
  | done first others hnone =>
    rw [contracted_of_none hnone, settled_of_forall_startsSummand]
    refine List.forall_mem_cons.mpr ⟨hfirst, fun r hr => ?_⟩
    exact startsSummand_of_tightest_eq_none hnone _ (List.mem_map_of_mem hr)
  | contract first others o hsome ih =>
    have hheads := heads_contractAfter o first others
    have hkept : (contractAfter (some o) first others).1.head.operator = first.head.operator := by
      rw [← operator_head_fuse o first.head (others.map Run.head), hheads]
    have hstarts : first.head.operator ≠ some o := fun h =>
      Bool.false_ne_true ((startsSummand_of_tightest hsome).symm.trans (h ▸ hfirst))
    have hstands := collapse_takenIn_fuse hsome first.head first.head
      (fun _ hu => hu) hstarts (.inl hfirst)
    have hmem : ∀ r ∈ others, r.head ∈ others.map Run.head := fun r hr => List.mem_map_of_mem hr
    have hothers := settled_contractAfter hsome first.head first hmem
    rw [hheads] at hstands hothers
    rw [contracted_of_some hsome, ih (hkept ▸ hfirst), settled, settled, hstands,
      List.cons_append, List.cons_append, hothers]

/-- Terms that stand for themselves settle one by one. -/
theorem getElem?_settled_single (l : List Operator) (ts : List (Term α ν)) (i : Nat) :
    (settled l (ts.map .single))[i]?
      = ts[i]?.map fun t => Run.collapse l ⟨t, takenIn l t (ts.drop (i + 1))⟩ := by
  induction ts generalizing i with
  | nil => rfl
  | cons t ts ih =>
    rw [List.map_cons, settled, map_head_single]
    cases i with
    | zero => rfl
    | succ i => exact ih i

/-! ## Reducing a scope -/

theorem Term.node_lead (t : Term α ν) : t.lead.node = t.node := by
  obtain ⟨_ | o, v, n⟩ := t
  · rfl
  · cases o <;> rfl

/-- **The terms of a scope, led by the first**: what a reduction works on. -/
def led (ts : List (Term α ν)) : List (Term α ν) :=
  ts.modifyHead Term.lead

/-- Fewer than three terms, or terms behind one that is no addition, stay but for
the sign of the first. -/
theorem terms_reduce_eq_lead {ts : List (Term α ν)}
    (h : ts.length < 3 ∨ ∃ t, ts.head? = some t ∧ startsSummand t.operator = false) :
    (reduce ts).terms = led ts := by
  match ts with
  | [] => rfl
  | [t] => rfl
  | [t, u] => rfl
  | t :: u :: v :: ts =>
    have hno : startsSummand t.operator = false := by
      rcases h with h | ⟨s, hs, h⟩
      · exact absurd h (Nat.not_lt.mpr (Nat.le_add_left 3 ts.length))
      · exact Option.some.inj hs ▸ h
    rw [reduce_of_not_leading (Term.precedence_lead_pos hno)]
    rfl

/-- **Three terms and more settle**, behind one that begins a summand. -/
theorem terms_reduce_eq_settled {ts : List (Term α ν)} (hlength : 3 ≤ ts.length)
    (h : ∀ t, ts.head? = some t → startsSummand t.operator = true) :
    (reduce ts).terms
      = settled (levels (led ts)) ((led ts).map .single) := by
  match ts with
  | t :: u :: v :: ts =>
    have hadd : t.lead.operator = some .add := by rw [Term.operator_lead, if_pos (h t rfl)]
    rw [reduce_of_leading ((Term.operator_lead_eq_add_iff t).mp hadd)]
    show ((contracted _ _).1 :: (contracted _ _).2).flatMap Run.terms
      = settled (levels (t.lead :: u :: v :: ts)) _
    rw [levels_cons_of_add hadd, terms_contracted, map_head_single]
    · rfl
    · show startsSummand t.lead.operator = true
      rw [hadd]
      rfl

/-- A scope is one or the other. -/
theorem terms_reduce_cases (ts : List (Term α ν)) :
    (reduce ts).terms = led ts
      ∨ (reduce ts).terms = settled (levels (led ts)) ((led ts).map .single) := by
  by_cases hlength : ts.length < 3
  · exact .inl (terms_reduce_eq_lead (.inl hlength))
  · by_cases hno : ∃ t, ts.head? = some t ∧ startsSummand t.operator = false
    · exact .inl (terms_reduce_eq_lead (.inr hno))
    · refine .inr (terms_reduce_eq_settled (Nat.not_lt.mp hlength) fun t ht => ?_)
      exact Bool.not_eq_false _ ▸ fun h => hno ⟨t, ht, h⟩

/-- What every run keeps of its head, every term keeps. -/
theorem map_terms_reduce {β : Type} (f : Term α ν → β)
    (hf : ∀ l (r : Run α ν), f (Run.collapse l r) = f r.head) (ts : List (Term α ν)) :
    (reduce ts).terms.map f = (led ts).map f := by
  rcases terms_reduce_cases ts with h | h
  · rw [h]
  · refine List.ext_getElem? fun i => ?_
    rw [h, List.getElem?_map, List.getElem?_map, getElem?_settled_single, Option.map_map]
    exact congrArg (Option.map · _) (funext fun t => hf _ _)

/-- **What a reduction leaves of the terms of its scope.** -/
structure IsLeftOf (ts left : List (Term α ν)) : Prop where
  /-- No term goes and none is added. -/
  length_eq : left.length = ts.length
  /-- The operators stay, but for that of a first term: it is a plus if it was
  additive or missing. -/
  operators_eq : left.map Term.operator
    = (ts.map Term.operator).modifyHead fun o => if startsSummand o then some .add else o
  /-- The nodes stay, whatever they are: each in its place, and no value that is a
  literal's comes by one. -/
  node_eq : left.map Term.node = ts.map Term.node
  /-- If there are too few terms to contract, or nothing in front to contract into,
  the first term leads and nothing else changes. -/
  eq_led : ts.length < 3 ∨ (∃ t, ts.head? = some t ∧ startsSummand t.operator = false) →
    left = led ts
  /-- Otherwise a term is what it comes to with the terms that it takes in. -/
  takes_in : 3 ≤ ts.length → (∀ t, ts.head? = some t → startsSummand t.operator = true) →
    ∀ i t, (led ts)[i]? = some t →
      left[i]? = some (Run.collapse (levels (led ts))
        ⟨t, takenIn (levels (led ts)) t ((led ts).drop (i + 1))⟩)
  /-- A term stays as it is unless the next one binds tighter. -/
  untouched : ∀ i t, (led ts)[i]? = some t →
    (∀ u, (led ts)[i + 1]? = some u → ¬ tightness (levels (led ts)) t.operator
      < tightness (levels (led ts)) u.operator) → left[i]? = some t
  /-- Powers bind tighter than anything else. -/
  binds_tightest : ∀ o, o ≠ some .pow →
    tightness (levels (led ts)) o < tightness (levels (led ts)) (some .pow)
  /-- Of two product operators the one that occurs first binds tighter. -/
  binds_by_first : ∀ o q : Operator, o.precedence = 1 → q.precedence = 1 →
    (tightness (levels (led ts)) (some q) < tightness (levels (led ts)) (some o)
      ↔ (operators (led ts)).idxOf o < (operators (led ts)).idxOf q)
  /-- What begins a summand binds no tighter than anything, and less than the product
  operators that occur. -/
  binds_loosest : ∀ o, startsSummand o = true →
    (∀ p, tightness (levels (led ts)) o ≤ tightness (levels (led ts)) p)
      ∧ ∀ q ∈ products (led ts),
        tightness (levels (led ts)) o < tightness (levels (led ts)) (some q)

/-- **A reduction leaves every term in its place**, each with the value that it
comes to by itself and the run of tighter terms behind it. -/
theorem isLeftOf_terms_reduce (ts : List (Term α ν)) : IsLeftOf ts (reduce ts).terms where
  length_eq := length_terms_reduce ts
  operators_eq := by
    have hled : (led ts).map Term.operator
        = (ts.map Term.operator).modifyHead fun o => if startsSummand o then some .add else o := by
      cases ts with
      | nil => rfl
      | cons t ts => exact congrArg (· :: ts.map Term.operator) t.operator_lead
    rw [← hled, map_terms_reduce Term.operator fun l r => Run.operator_collapse l r]
  node_eq := by
    have hled : (led ts).map Term.node = ts.map Term.node := by
      cases ts with
      | nil => rfl
      | cons t ts => exact congrArg (· :: ts.map Term.node) t.node_lead
    rw [← hled, map_terms_reduce Term.node fun l r => (Run.collapse_keeps l r).2]
  eq_led := terms_reduce_eq_lead
  takes_in := by
    intro hlength hfirst i t ht
    rw [terms_reduce_eq_settled hlength hfirst, getElem?_settled_single, ht]
    rfl
  untouched := by
    intro i t ht hnext
    rcases terms_reduce_cases ts with hleft | hleft
    · rw [hleft, ht]
    · rw [hleft, getElem?_settled_single, ht, Option.map_some, takenIn_eq_nil fun u hu => ?_]
      · exact congrArg some (Run.collapse_single _ t)
      · rw [List.head?_drop] at hu
        exact Nat.not_lt.mp (hnext u hu)
  binds_tightest _ := tightness_lt_pow
  binds_by_first _ _ := tightness_lt_iff_first
  binds_loosest _ ho := tightness_le_of_startsSummand ho _

end Reckon
