import Reckon.Outcome
import Reckon.Proofs.Levels
import Reckon.Proofs.Zeros

/-!
# Adding a product to a sum

A list of terms is reduced, and then a product is put behind it – a plus and
terms that multiply, divide or raise. One would like the value to be the old
one plus that of the product. It is the old one plus what the product comes to
under the levels of the whole list (`same_reduce_append_product`). What is in
front has the say in which product operator binds tighter, so the product may
come to something else there than alone; it comes to the same if its operators
first occur in the same order in the whole list.

The other thing that the front can change is the sign of a zero. Two terms are
applied as they stand, and the first is added to zero for that, while in a
longer list the second is folded into the first before anything is added. Only
an odd pole can tell the difference (`LosesSign`).
-/

namespace Reckon

open Binary64

/-! ## Sums of two lists -/

section Appending

variable {α : Type} {t u : Term α} {ts us : List (Term α)}

/-- **A split goes through an append** at a term that begins a part. -/
theorem segments_append {p : Option Operator → Bool} (hu : p u.operator = true)
    (ts us : List (Term α)) :
    segments p (ts ++ u :: us)
      = ((segments p ts).1, (segments p ts).2 ++ (segments p (u :: us)).2) := by
  induction ts with
  | nil =>
    rw [List.nil_append, segments_cons_of_pos hu]
    rfl
  | cons t ts ih =>
    rw [List.cons_append]
    cases ht : p t.operator with
    | true =>
      rw [segments_cons_of_pos ht, segments_cons_of_pos ht, ih]
      rfl
    | false =>
      rw [segments_cons_of_neg ht, segments_cons_of_neg ht, ih]

theorem products_append (ts us : List (Term α)) :
    products (ts ++ us)
      = products ts
        ++ (((operators us).filter fun o => o.precedence == 1).removeAll
            ((operators ts).filter fun o => o.precedence == 1)).eraseDups := by
  rw [products, operators, List.filterMap_append, List.filter_append, List.eraseDups_append]
  rfl

/-- **Do the product operators of a list keep their order in another one?** -/
def KeepsOrder (ts whole : List (Term α)) : Prop :=
  (products whole).filter (· ∈ products ts) = products ts

instance (ts whole : List (Term α)) : Decidable (KeepsOrder ts whole) :=
  inferInstanceAs (Decidable (_ = _))

/-- What comes first has its operators in its own order. -/
theorem keepsOrder_append (ts us : List (Term α)) : KeepsOrder ts (ts ++ us) := by
  have hself : (products ts).filter (· ∈ products ts) = products ts :=
    List.filter_eq_self.mpr fun o ho => decide_eq_true ho
  rw [KeepsOrder, products_append, List.filter_append, hself]
  refine List.append_right_eq_self.mpr (List.filter_eq_nil_iff.mpr fun o ho => ?_)
  rw [List.mem_eraseDups, List.removeAll, List.mem_filter] at ho
  intro hmem
  rw [List.elem_eq_true_of_mem (List.mem_eraseDups.mp (of_decide_eq_true hmem))] at ho
  exact Bool.false_ne_true ho.2

variable [Arithmetic α]

/-- **Levels can be told from a longer list**, if the order is the same. -/
theorem groupedSum_of_keepsOrder {whole : List (Term α)} (h : KeepsOrder ts whole) :
    groupedSum (levels whole) ts = groupedSum (levels ts) ts := by
  let keeps : Operator → Bool := fun o => decide (o ∈ products ts) || o == .pow
  have hkeep : (levels whole).filter keeps = levels ts := by
    have hproducts : (products whole).filter keeps = products ts := by
      refine Eq.trans (List.filter_congr fun o ho => ?_) h
      have hne : (o == Operator.pow) = false := by
        rw [beq_eq_false_iff_ne]
        rintro rfl
        exact absurd (mem_products.mp ho).2 (by decide)
      show (_ || o == .pow) = _
      rw [hne, Bool.or_false]
    rw [levels, List.filter_append, List.filter_reverse, hproducts, levels]
    refine congrArg _ (List.filter_eq_self.mpr fun o ho => ?_)
    rw [List.mem_singleton.mp ho]
    exact Bool.or_true _
  -- A level that is left out does not occur in any part.
  have habsent : ∀ o ∈ levels whole, keeps o = false → ∀ u ∈ ts, u.operator ≠ some o := by
    intro o ho hdropped u hu huo
    obtain ⟨hmem, hpow⟩ := Bool.or_eq_false_iff.mp hdropped
    rcases List.mem_append.mp ho with ho | ho
    · refine of_decide_eq_false hmem (mem_products.mpr ⟨mem_operators.mpr ⟨u, hu, huo⟩, ?_⟩)
      exact (mem_products.mp (List.mem_reverse.mp ho)).2
    · exact beq_eq_false_iff_ne.mp hpow (List.mem_singleton.mp ho)
  obtain ⟨_, hsteps⟩ := mem_of_mem_segments startsSummand ts
  rw [groupedSum, groupedSum, ← hkeep]
  refine congrArg fold (List.map_congr_left fun s hs => ?_)
  exact (Run.collapse_filter _ fun o ho hdropped u hu =>
    habsent o ho hdropped u ((hsteps s hs).2 u hu).1).symm

/-- The steps of a sum, each applied to what the ones before it came to. -/
def summands (l : List Operator) (ts : List (Term α)) : List (Term α) :=
  (segments startsSummand ts).2.map (Run.collapse l)

/-- **The sum of an append goes on from the sum of the first list.** -/
theorem groupedSum_append (l : List Operator) (hu : startsSummand u.operator = true)
    (ts us : List (Term α)) :
    groupedSum l (ts ++ u :: us)
      = (summands l (u :: us)).foldl (fun v t => t.apply v) (groupedSum l ts) := by
  rw [groupedSum, segments_append hu, List.map_append]
  exact List.foldl_append

/-- An addition at the end is the last step of a sum. -/
theorem groupedSum_append_add (l : List Operator) {y : Term α} (hy : y.operator = some .add)
    (ts : List (Term α)) : groupedSum l (ts ++ [y]) = y.apply (groupedSum l ts) := by
  have hstarts : startsSummand y.operator = true := by rw [hy]; rfl
  rw [groupedSum_append l hstarts, summands, segments_cons_of_pos hstarts]
  show (Run.collapse l (.single y)).apply _ = _
  rw [Run.collapse_single]

/-- A step without an operator has no result, and neither has what follows it
if none of it has one. -/
theorem foldl_apply_of_none (v : α) (hts : ∀ u ∈ t :: ts, u.operator = none) :
    (t :: ts).foldl (fun v t => t.apply v) v = Arithmetic.undefined := by
  induction ts generalizing t v with
  | nil =>
    show t.apply v = _
    rw [Term.apply, hts t List.mem_cons_self]
  | cons u us ih => exact ih (t.apply v) fun w hw => hts w (List.mem_cons_of_mem _ hw)

end Appending

/-! ## A product behind a sum -/

/-- **Is the list one product?** It begins with a plus, and no other term of it
is additive. -/
def IsProduct {α : Type} : List (Term α) → Prop
  | [] => False
  | b :: bs => b.operator = some .add ∧ ∀ u ∈ bs, u.operator ≠ some .add ∧ u.operator ≠ some .sub

/-- In a product only a missing operator begins another summand. -/
theorem eq_none_of_startsSummand {o : Option Operator} (hadd : o ≠ some .add)
    (hsub : o ≠ some .sub) (h : startsSummand o = true) : o = none := by
  cases o with
  | none => rfl
  | some o =>
    cases o with
    | add => exact absurd rfl hadd
    | sub => exact absurd rfl hsub
    | mul | div | mod | pow => exact absurd h (by decide)

theorem add_undefined (v : Float) : v + undefined = undefined :=
  isNaN_iff.mp (isStrict_add.isNaN_pack (.inr isNaN_undefined))

/-- An addition adds its value, an undefined one if it has none. -/
theorem Term.apply_of_add {t : Term Float} (ht : t.operator = some .add) (v : Float) :
    t.apply v = v + t.number := by
  rw [Term.apply, ht, Term.number]
  cases t.value with
  | some b => rfl
  | none => exact (add_undefined v).symm

/-- The same running values give the same steps, unless the step is a power that
tells the zeros apart. -/
theorem Term.same_apply {t : Term Float} {v w : Float} (h : Same v w)
    (hpole : t.operator = some .pow → isOddPole t.number = false) :
    Same (t.apply v) (t.apply w) := by
  obtain ⟨_ | o, _ | b, g⟩ := t
  · exact .refl _
  · exact .refl _
  · exact .refl _
  · exact Operator.same_apply_left h fun ho => hpole (congrArg some ho)

/-- **A sum goes on by the sum of its next steps**, if these are an addition and
steps without a result. -/
theorem same_foldl_apply (v : Float) {t : Term Float} {ts : List (Term Float)}
    (ht : t.operator = some .add) (hts : ∀ u ∈ ts, u.operator = none) :
    Same ((t :: ts).foldl (fun v t => t.apply v) v) (v + fold (t :: ts)) := by
  cases ts with
  | nil =>
    show Same (t.apply v) (v + t.apply (zero false))
    rw [Term.apply_of_add ht, Term.apply_of_add ht]
    exact (Same.refl v).add (same_zero_add t.number).symm
  | cons u us =>
    have hfold (w : Float) : (t :: u :: us).foldl (fun v t => t.apply v) w = undefined :=
      foldl_apply_of_none (t.apply w) hts
    show Same _ (v + (t :: u :: us).foldl (fun v t => t.apply v) (zero false))
    rw [hfold, hfold, add_undefined]
    exact .refl _

/-- **A product is added as a whole**, whatever the levels are. -/
theorem same_groupedSum_append (l : List Operator) (ts : List (Term Float))
    {bs : List (Term Float)} (hbs : IsProduct bs) :
    Same (groupedSum l (ts ++ bs)) (groupedSum l ts + groupedSum l bs) := by
  obtain _ | ⟨b, bs⟩ := bs
  · exact hbs.elim
  obtain ⟨hb, hbs⟩ := hbs
  have hstarts : startsSummand b.operator = true := by rw [hb]; rfl
  obtain ⟨_, hsteps⟩ := mem_of_mem_segments startsSummand bs
  rw [groupedSum_append l hstarts, groupedSum_cons hstarts, summands,
    segments_cons_of_pos hstarts, List.map_cons]
  refine same_foldl_apply _ ((Run.operator_collapse l _).trans hb) fun u hu => ?_
  obtain ⟨s, hs, rfl⟩ := List.mem_map.mp hu
  obtain ⟨⟨hmem, hhead⟩, _⟩ := hsteps s hs
  rw [Run.operator_collapse]
  exact eq_none_of_startsSummand (hbs s.head hmem).1 (hbs s.head hmem).2 hhead

/-! ## Short lists -/

/-- The value of a reduction as a number: a missing one is undefined. -/
def Reduction.number {α : Type} [Arithmetic α] (r : Reduction α) : α :=
  r.value.getD Arithmetic.undefined

/-- **Does reducing the terms lose the sign of a zero?** It does if there are
two of them, a negative zero and an exponent under which it counts: a sum from
zero has begun before the power is taken. -/
def LosesSign : List (Term Float) → Prop
  | [t, u] => t.lead.number = zero true ∧ u.operator = some .pow ∧ isOddPole u.number = true
  | _ => False

instance : DecidablePred LosesSign
  | [t, _] => inferInstanceAs (Decidable (t.lead.number = zero true ∧ _))
  | [] | [_] | _ :: _ :: _ :: _ => inferInstanceAs (Decidable False)

/-- A single step that is folded into the first term. -/
theorem groupedSum_pair {α : Type} [Arithmetic α] {t u : Term α} (ht : t.operator = some .add)
    (hu : startsSummand u.operator = false) :
    groupedSum (levels [t, u]) [t, u]
      = Arithmetic.add Arithmetic.zero (u.apply t.number) := by
  obtain ⟨o, v, g⟩ := t
  obtain ⟨_ | p, b, k⟩ := u
  · exact absurd hu.symm Bool.false_ne_true
  · obtain rfl : o = some .add := ht
    cases p with
    | add | sub => exact absurd hu.symm Bool.false_ne_true
    | mul | div | mod | pow => rfl

/-- Two summands are applied one after the other, as they stand. -/
theorem groupedSum_pair_of_starts {α : Type} [Arithmetic α] {t u : Term α}
    (ht : t.operator = some .add) (hu : startsSummand u.operator = true) :
    groupedSum (levels [t, u]) [t, u] = u.apply (t.apply Arithmetic.zero) := by
  have hstarts : startsSummand t.operator = true := by rw [ht]; rfl
  rw [groupedSum_cons hstarts, segments_cons_of_pos hu]
  show fold [Run.collapse _ (.single t), Run.collapse _ (.single u)] = _
  rw [Run.collapse_single, Run.collapse_single]
  rfl

/-- **A reduction that begins with an addition is the sum of its summands**,
unless it loses the sign of a zero. -/
theorem same_reduce {t : Term Float} {ts : List (Term Float)} (ht : t.lead.operator = some .add)
    (hsign : ¬ LosesSign (t :: ts)) :
    Same (reduce (t :: ts)).number
      (groupedSum (levels (t.lead :: ts)) (t.lead :: ts)) := by
  match ts with
  | [] =>
    have hstarts : startsSummand t.lead.operator = true := by rw [ht]; rfl
    rw [groupedSum_cons hstarts]
    show Same t.lead.number (fold [Run.collapse _ (.single t.lead)])
    rw [Run.collapse_single]
    show Same t.lead.number (t.lead.apply (zero false))
    rw [Term.apply_of_add ht]
    exact (same_zero_add _).symm
  | [u] =>
    show Same (u.apply (t.lead.apply (zero false))) _
    cases hu : startsSummand u.operator with
    | true =>
      rw [groupedSum_pair_of_starts ht hu]
      exact .refl _
    | false =>
      rw [groupedSum_pair ht hu, Term.apply_of_add ht]
      refine Same.trans ?_ (same_zero_add _).symm
      by_cases hzero : t.lead.number = zero true
      · refine Term.same_apply (same_zero_add _) fun hpow => Bool.eq_false_iff.mpr fun hpole => ?_
        exact hsign ⟨hzero, hpow, hpole⟩
      · -- Any other number is what adding it to zero gives.
        rcases same_iff.mp (same_zero_add t.lead.number) with h | ⟨s, hsum, hnumber⟩
        · rw [h]
          exact .refl _
        · cases s with
          | false => exact absurd hnumber hzero
          | true =>
            rw [hnumber, show zero false + zero (!true) = zero (!true) by decide +kernel]
            exact .refl _
  | u :: v :: ts =>
    rw [Reduction.number, value_reduce_of_leading_add ht]
    exact .refl _

/-- Leading does not change the product operators. -/
theorem products_lead {α : Type} [Arithmetic α] (t : Term α) (ts : List (Term α)) :
    products (t.lead :: ts) = products (t :: ts) := by
  obtain ⟨_ | o, v, g⟩ := t
  · rfl
  · cases o with
    | add | sub | mul | div | mod | pow => rfl

/-- Where a product follows, no pole is left as the second of two terms. -/
theorem not_losesSign_append (a : Term Float) (as : List (Term Float)) {bs : List (Term Float)}
    (hbs : IsProduct bs) : ¬ LosesSign (a :: (as ++ bs)) := by
  intro h
  obtain _ | ⟨b, bs⟩ := bs
  · exact hbs.elim
  cases as with
  | nil =>
    cases bs with
    | nil => exact absurd (hbs.1.symm.trans h.2.1) (by decide)
    | cons c bs => exact h
  | cons c as =>
    cases as with
    | nil => exact h
    | cons d as => exact h

/-- **What a product adds to a sum.** It is what the product comes to under the
levels of the whole list. If its operators keep their order there, that is the
value that it has alone. -/
theorem same_reduce_append_product (a : Term Float) (as bs : List (Term Float))
    (ha : a.lead.operator = some .add) (hbs : IsProduct bs) (hsign : ¬ LosesSign (a :: as)) :
    let whole := a :: as ++ bs
    Same (reduce whole).number ((reduce (a :: as)).number + groupedSum (levels whole) bs)
      ∧ (¬ LosesSign bs → KeepsOrder bs whole
        → Same (reduce whole).number ((reduce (a :: as)).number + (reduce bs).number)) := by
  intro whole
  have hlevels : levels (a.lead :: (as ++ bs)) = levels whole := by
    rw [levels, products_lead]
    rfl
  have hfront : Same (reduce (a :: as)).number (groupedSum (levels whole) (a.lead :: as)) := by
    rw [← hlevels, ← List.cons_append, groupedSum_of_keepsOrder (keepsOrder_append _ _)]
    exact same_reduce ha hsign
  have hsum : Same (reduce whole).number
      ((reduce (a :: as)).number + groupedSum (levels whole) bs) := by
    refine (same_reduce ha (not_losesSign_append a as hbs)).trans ?_
    rw [hlevels, ← List.cons_append]
    exact (same_groupedSum_append _ _ hbs).trans (hfront.symm.add (.refl _))
  refine ⟨hsum, fun hloses horder => hsum.trans (Same.add (.refl _) ?_)⟩
  rw [groupedSum_of_keepsOrder horder]
  obtain _ | ⟨b, bs⟩ := bs
  · exact hbs.elim
  · obtain ⟨o, v, g⟩ := b
    obtain rfl : o = some .add := hbs.1
    exact (same_reduce (t := ⟨some .add, v, g⟩) rfl hloses).symm

/-- A product that has its operators in the order of the whole list. -/
theorem same_reduce_append_product_of_order :
    let as : List (Term Float) := [⟨some .sub, some 8, none⟩, ⟨some .mul, some 5, none⟩]
    let bs : List (Term Float) :=
      [⟨some .add, some 3, none⟩, ⟨some .mul, some 5, none⟩, ⟨some .mod, some 4, none⟩]
    ¬ LosesSign as ∧ IsProduct bs ∧ ¬ LosesSign bs ∧ KeepsOrder bs (as ++ bs)
      ∧ Same (reduce (as ++ bs)).number ((reduce as).number + (reduce bs).number) := by
  intro as bs
  have has : ¬ LosesSign as := by decide +kernel
  have hbs : IsProduct bs := by simp [bs, IsProduct]
  have hsign : ¬ LosesSign bs := nofun
  have horder : KeepsOrder bs (as ++ bs) := by decide +kernel
  exact ⟨has, hbs, hsign, horder,
    (same_reduce_append_product _ _ bs rfl hbs has).2 hsign horder⟩

/-- **The value of a product can depend on what is in front of it.** It does
where the front has its operators in another order, and where the front alone
loses the sign of a zero. -/
theorem not_same_reduce_append :
    (¬ ∀ (a : Term Float) (as bs : List (Term Float)),
        a.operator = some .add ∨ a.operator = some .sub → IsProduct bs
        → (∀ t ∈ a :: as ++ bs, t.value.isSome = true)
        → Same (reduce (a :: as ++ bs)).number ((reduce (a :: as)).number + (reduce bs).number))
      ∧ (evaluate "8%5+3*5%4*2" = 9 ∧ evaluate "8%5" + evaluate "3*5%4*2" = 10)
      ∧ evaluate "-0^-1+5" = infinity true ∧ evaluate "-0^-1" + evaluate "5" = infinity false := by
  refine ⟨fun h => ?_, ?_, ?_⟩
  · refine absurd (h ⟨some .add, some 8, none⟩ [⟨some .mod, some 5, none⟩]
      [⟨some .add, some 3, none⟩, ⟨some .mul, some 5, none⟩, ⟨some .mod, some 4, none⟩,
        ⟨some .mul, some 2, none⟩] (.inl rfl) (by simp [IsProduct]) (by simp)) ?_
    decide +kernel
  · decide +kernel
  · decide +kernel

end Reckon
