/-
The order of the values of rules.

Numbers, and truth values as numbers, are compared by the sign of their difference, texts by their
code units. The sign agrees with the order of the numbers and with equality, except that the
difference of an infinity and itself is not a number. There `<=` and `>=` do not hold although `==`
does:

* `Datum.Comparable`, `Datum.Ordered` — the values that compare, and how they do;
* `Datum.Ordered.difference` — the sign that a comparison looks at;
* `Datum.Ordered.holds`, `Datum.Ordered.equals_eq` — what each comparison says;
* `Datum.AtMost`, `Helper.Ahead` — the order that the least and the greatest value are about;
* `Helper.extreme_step`, `Helper.extreme_run` — one step of the search for them, and all of it;
* `Datum.order_agrees` — all of it together, for rules.
-/
import Mathlib.Order.Compare
import PageExtract.Proofs.Number.Difference
import PageExtract.Proofs.Rule.Chains
import PageExtract.Proofs.Rule.Equality
import PageExtract.Proofs.Text.Units

namespace PageExtract

namespace Datum

/-- Two numbers, truth values among them, or two texts. A joined text is one for each sequence of
code units. -/
inductive Comparable : Datum Float → Datum Float → Prop
  | numbers {a b : Datum Float} {x y : Float} (ha : a.number? = some x) (hb : b.number? = some y)
      (hx : (x == x) = true) (hy : (y == y) = true) : Comparable a b
  | texts {s t : String} (hs : Text.joined s = s) (ht : Text.joined t = t) :
      Comparable (.str s) (.str t)

/-- How two values compare: numbers by their ranks, texts by their code units. -/
inductive Ordered : Datum Float → Datum Float → Ordering → Prop
  | numbers {a b : Datum Float} {x y : Float} {i j : ℤ ×ₗ ℤ ×ₗ ℤ} {o : Ordering}
      (ha : a.number? = some x) (hb : b.number? = some y)
      (hx : Double.rank? x.toModel.unpack = some i) (hy : Double.rank? y.toModel.unpack = some j)
      (ho : o.Compares i j) : Ordered a b o
  | texts {s t : String} {o : Ordering} (hs : Text.joined s = s) (ht : Text.joined t = t)
      (ho : o.Compares (Text.units s) (Text.units t)) : Ordered (.str s) (.str t) o

/-- Whether a value counts as an infinity. -/
def isInfinity (d : Datum Float) : Bool := d.number?.any fun x => !Numeric.isFinite x

theorem Comparable.ordered {a b : Datum Float} (h : Comparable a b) : ∃ o, Ordered a b o := by
  cases h with
  | numbers ha hb hx hy =>
    obtain ⟨i, hi⟩ := Double.exists_rank hx
    obtain ⟨j, hj⟩ := Double.exists_rank hy
    exact ⟨_, .numbers ha hb hi hj (cmp_compares i j)⟩
  | texts hs ht => exact ⟨_, .texts hs ht (cmp_compares _ _)⟩

/-- Of what is in order one after the other, the first compares with the last as the first two that
differ do. -/
theorem compares_then {α : Type} [Preorder α] {i j k : α} {o o' : Ordering} (ho : o ≠ .gt)
    (ho' : o' ≠ .gt) (hij : o.Compares i j) (hjk : o'.Compares j k) :
    (o.then o').Compares i k := by
  cases o with
  | lt => exact hij.trans_le (hjk.ne_gt.1 ho')
  | eq =>
    obtain rfl := hij
    exact hjk
  | gt => exact absurd rfl ho

namespace Ordered

variable {a b c : Datum Float} {o o' : Ordering}

theorem swap (h : Ordered a b o) : Ordered b a o.swap := by
  cases h with
  | numbers ha hb hx hy ho => exact .numbers hb ha hy hx (Ordering.compares_swap.2 ho)
  | texts hs ht ho => exact .texts ht hs (Ordering.compares_swap.2 ho)

theorem trans (h : Ordered a b o) (h' : Ordered b c o') (ho : o ≠ .gt) (ho' : o' ≠ .gt) :
    Ordered a c (o.then o') := by
  cases h with
  | numbers ha hb hx hy hij =>
    cases h' with
    | numbers hb' hc hy' hz hjk =>
      obtain rfl := Option.some_inj.1 (hb.symm.trans hb')
      obtain rfl := Option.some_inj.1 (hy.symm.trans hy')
      exact .numbers ha hc hx hz (compares_then ho ho' hij hjk)
    | texts => cases hb
  | texts hs ht hij =>
    cases h' with
    | numbers hb' => cases hb'
    | texts ht' hu hjk => exact .texts hs hu (compares_then ho ho' hij hjk)

/-! ### Comparisons -/

theorem order?_eq {x y : Float} {i j : ℤ ×ₗ ℤ ×ₗ ℤ} (hx : Double.rank? x.toModel.unpack = some i)
    (hy : Double.rank? y.toModel.unpack = some j) (ho : o.Compares i j) :
    Double.order? x y = some o := by
  rw [Double.order?_of_rank hx hy, ← cmp_eq_compare, ho.cmp_eq]

/-- Values are equal if neither comes first. -/
theorem equals_eq (h : Ordered a b o) : a.equals b = (o == .eq) := by
  rw [Bool.eq_iff_iff, beq_iff_eq]
  cases h with
  | numbers ha hb hx hy ho =>
    rw [equals_of_number ha, hb]
    simp [Double.beq_iff_order, order?_eq hx hy ho]
  | @texts s t _ hs ht ho =>
    rw [ho.eq_eq]
    show (s == t) = true ↔ _
    rw [beq_iff_eq]
    exact ⟨congrArg Text.units, Text.units_inj hs ht⟩

/-- An infinity is equal to infinities only. -/
theorem isInfinity_eq (h : Ordered a b .eq) : a.isInfinity = b.isInfinity := by
  cases h with
  | numbers ha hb hx hy ho =>
    rw [isInfinity, isInfinity, ha, hb, Option.any_some, Option.any_some,
      Double.isFinite_congr (order?_eq hx hy ho)]
  | texts => rfl

/-- How the difference that a comparison looks at compares with zero. -/
theorem difference (op : String) (h : Ordered a b o) : ∃ gap, Datum.difference op a b = .ok gap ∧
    Double.order? gap 0.0 = if o = .eq ∧ a.isInfinity then none else some o := by
  cases h with
  | @numbers a b x y i j _ ha hb hx hy ho =>
    have hinfinity : a.isInfinity = true ↔ Numeric.isFinite x = false := by
      rw [isInfinity, ha]
      simp
    refine ⟨x - y, ?_, ?_⟩
    · simp only [Datum.difference, ha, hb]
    · simp only [Double.order?_sub (order?_eq hx hy ho), hinfinity]
  | @texts s t _ hs ht ho =>
    -- The difference of two texts is one of three numbers, all of them finite.
    have hlt : Text.lt16 s t = true ↔ o = .lt := by rw [ho.eq_lt, Text.lt16, Text.unitsLt_iff]
    have hgt : Text.lt16 t s = true ↔ o = .gt := by rw [ho.eq_gt, Text.lt16, Text.unitsLt_iff]
    refine ⟨_, rfl, ?_⟩
    have hinfinity : (Datum.str s : Datum Float).isInfinity = false := rfl
    simp only [hlt, hgt, hinfinity]
    cases o <;> rfl

end Ordered

end Datum

/-- The orders that a comparison stands for. -/
def CompareOp.accepts : CompareOp → Ordering → Bool
  | .lt, o => o == .lt
  | .le, o => o != .gt
  | .gt, o => o == .gt
  | .ge, o => o != .lt
  | _, _ => false

namespace Datum

variable {a b c : Datum Float} {o : Ordering}

/-- A comparison holds for the orders that it stands for, but not for an infinity and itself. -/
theorem Ordered.holds (h : Ordered a b o) {op : CompareOp} (hop : op ∈ [.lt, .le, .gt, .ge]) :
    op.holds a b = .ok (op.accepts o && !(o == .eq && a.isInfinity)) := by
  obtain ⟨gap, hgap, horder⟩ := h.difference op.text
  have hswap := Double.order?_swap gap 0.0
  rw [horder] at hswap
  simp only [List.mem_cons, List.not_mem_nil, or_false] at hop
  obtain rfl | rfl | rfl | rfl := hop
  all_goals
    rw [CompareOp.holds, hgap]
    refine congrArg Except.ok ?_
    rw [Bool.eq_iff_iff, decide_eq_true_iff]
  · rw [Double.lt_iff_order, horder]
    cases o <;> cases a.isInfinity <;> decide
  · rw [Double.le_iff_order, horder]
    cases o <;> cases a.isInfinity <;> decide
  · rw [Double.lt_iff_order, hswap]
    cases o <;> cases a.isInfinity <;> decide
  · rw [Double.le_iff_order, hswap]
    cases o <;> cases a.isInfinity <;> decide

theorem Ordered.lt_holds (h : Ordered a b o) : CompareOp.lt.holds a b = .ok (o == .lt) := by
  rw [h.holds (by simp)]
  cases o <;> rfl

theorem Ordered.gt_holds (h : Ordered a b o) : CompareOp.gt.holds a b = .ok (o == .gt) := by
  rw [h.holds (by simp)]
  cases o <;> rfl

theorem Ordered.eq_holds (h : Ordered a b o) : CompareOp.eq.holds a b = .ok (o == .eq) := by
  rw [CompareOp.holds, h.equals_eq]

theorem Ordered.ge_holds (h : Ordered a b o) :
    CompareOp.ge.holds a b = CompareOp.le.holds b a := by
  rw [h.holds (by simp), h.swap.holds (by simp)]
  cases o with
  | lt => rfl
  | eq => rw [h.isInfinity_eq]; rfl
  | gt => rfl

/-! ### The least and the greatest -/

/-- The first value does not come after the second. -/
def AtMost (a b : Datum Float) : Prop := ∃ o, Ordered a b o ∧ o ≠ .gt

theorem AtMost.trans (h : AtMost a b) (h' : AtMost b c) : AtMost a c := by
  obtain ⟨o, ho, hle⟩ := h
  obtain ⟨o', ho', hle'⟩ := h'
  refine ⟨o.then o', ho.trans ho' hle hle', ?_⟩
  cases o
  · exact hle
  · exact hle'
  · exact absurd rfl hle

theorem Ordered.atMost (h : Ordered a b o) (ho : o ≠ .gt) : AtMost a b := ⟨o, h, ho⟩

theorem Ordered.atMost_swap (h : Ordered a b o) (ho : o ≠ .lt) : AtMost b a :=
  ⟨o.swap, h.swap, by cases o <;> simp at ho ⊢⟩

/-- A value that does not come after another is less or equal. -/
theorem AtMost.holds_left (h : AtMost a b) :
    (CompareOp.lt.holds a b = .ok true ∨ CompareOp.eq.holds a b = .ok true) ∧
      CompareOp.le.holds a b = .ok !(a.equals b && a.isInfinity) := by
  obtain ⟨o, ho, hle⟩ := h
  rw [ho.lt_holds, ho.eq_holds, ho.holds (by simp), ho.equals_eq]
  cases o with
  | lt => exact ⟨.inl rfl, rfl⟩
  | eq => exact ⟨.inr rfl, rfl⟩
  | gt => exact absurd rfl hle

/-- A value that another does not come after is greater or equal. -/
theorem AtMost.holds_right (h : AtMost a b) :
    (CompareOp.gt.holds b a = .ok true ∨ CompareOp.eq.holds b a = .ok true) ∧
      CompareOp.ge.holds b a = .ok !(b.equals a && b.isInfinity) := by
  obtain ⟨o, ho, hle⟩ := h
  rw [ho.swap.gt_holds, ho.swap.eq_holds, ho.swap.holds (by simp), ho.swap.equals_eq]
  cases o with
  | lt => exact ⟨.inl rfl, rfl⟩
  | eq => exact ⟨.inr rfl, rfl⟩
  | gt => exact absurd rfl hle

theorem Comparable.atMost_total (h : Comparable a b) : AtMost a b ∨ AtMost b a := by
  obtain ⟨o, ho⟩ := h.ordered
  by_cases hle : o = .gt
  · exact .inr (ho.atMost_swap (by rw [hle]; decide))
  · exact .inl (ho.atMost hle)

theorem Comparable.atMost_self (h : Comparable a a) : AtMost a a := or_self_iff.1 h.atMost_total

end Datum

namespace Helper

open Datum

variable {fn : Helper} {m x y : Datum Float}

/-- One value may be chosen over another as the least or the greatest. -/
def Ahead (fn : Helper) (m x : Datum Float) : Prop := if fn = .min then AtMost m x else AtMost x m

theorem Ahead.trans (h : fn.Ahead m x) (h' : fn.Ahead x y) : fn.Ahead m y := by
  unfold Ahead at *
  split_ifs at * with hfn
  · exact AtMost.trans h h'
  · exact AtMost.trans h' h

theorem ahead_self (h : Comparable x x) : fn.Ahead x x := by
  unfold Ahead
  split_ifs <;> exact h.atMost_self

/-- One more value is looked at: the better one of it and the best so far is kept. -/
theorem extreme_step (hfn : fn = .min ∨ fn = .max) {best d : Datum Float} (h : Comparable d best)
    (hbest : Comparable best best) (hd : Comparable d d) :
    ∃ chosen, (chosen = best ∨ chosen = d) ∧ fn.Ahead chosen best ∧ fn.Ahead chosen d ∧
      ∀ ds, fn.extreme best (d :: ds) = fn.extreme chosen ds := by
  obtain ⟨o, ho⟩ := h.ordered
  obtain ⟨gap, hgap, horder⟩ := ho.difference fn.name
  have hlt : gap < 0.0 ↔ o = .lt := by
    rw [Double.lt_iff_order, horder]
    cases o <;> cases d.isInfinity <;> decide
  have hgt : 0.0 < gap ↔ o = .gt := by
    rw [Double.lt_iff_order, Double.order?_swap gap 0.0, horder]
    cases o <;> cases d.isInfinity <;> decide
  have hstep : ∀ {chosen}, (if (if fn = .min then gap < 0.0 else 0.0 < gap) then d else best) =
      chosen → ∀ ds, fn.extreme best (d :: ds) = fn.extreme chosen ds := by
    rintro _ rfl ds
    rw [extreme, hgap]
    rfl
  obtain rfl | rfl := hfn
  · by_cases hless : gap < 0.0
    · exact ⟨d, .inr rfl, ho.atMost (by simp [hlt.1 hless]), ahead_self hd, hstep (if_pos hless)⟩
    · exact ⟨best, .inl rfl, ahead_self hbest, ho.atMost_swap fun h => hless (hlt.2 h),
        hstep (if_neg hless)⟩
  · by_cases hgreater : 0.0 < gap
    · exact ⟨d, .inr rfl, ho.atMost_swap (by simp [hgt.1 hgreater]), ahead_self hd,
        hstep (if_pos hgreater)⟩
    · exact ⟨best, .inl rfl, ahead_self hbest, ho.atMost fun h => hgreater (hgt.2 h),
        hstep (if_neg hgreater)⟩

/-- The search ends with a value of the list that is ahead of all of them. -/
theorem extreme_run (hfn : fn = .min ∨ fn = .max) {best : Datum Float} {ds : List (Datum Float)}
    (h : ∀ x ∈ best :: ds, ∀ y ∈ best :: ds, Comparable x y) :
    ∃ m ∈ best :: ds, fn.extreme best ds = .ok m ∧ ∀ x ∈ best :: ds, fn.Ahead m x := by
  induction ds generalizing best with
  | nil =>
    refine ⟨best, List.mem_cons_self, rfl, fun x hx => ?_⟩
    obtain rfl := List.mem_singleton.1 hx
    exact ahead_self (h x hx x hx)
  | cons d ds ih =>
    have hd : d ∈ best :: d :: ds := List.mem_cons_of_mem _ List.mem_cons_self
    have hfirst : best ∈ best :: d :: ds := List.mem_cons_self
    obtain ⟨chosen, heither, hbest, hlast, hstep⟩ :=
      extreme_step hfn (h d hd best hfirst) (h best hfirst best hfirst) (h d hd d hd)
    -- The choice takes the place of the two values that it was made from.
    have hsubset : chosen :: ds ⊆ best :: d :: ds := by
      obtain rfl | rfl := heither
      · exact List.cons_subset_cons _ (List.subset_cons_self _ _)
      · exact List.subset_cons_self _ _
    obtain ⟨m, hm, hrun, hahead⟩ := ih fun x hx y hy => h x (hsubset hx) y (hsubset hy)
    have hchosen := hahead chosen List.mem_cons_self
    refine ⟨m, hsubset hm, (hstep ds).trans hrun, fun x hx => ?_⟩
    obtain rfl | hx := List.mem_cons.1 hx
    · exact hchosen.trans hbest
    obtain rfl | hx := List.mem_cons.1 hx
    · exact hchosen.trans hlast
    · exact hahead x (List.mem_cons_of_mem _ hx)

/-- The values that a call for the least or the greatest is about: those of the list that is its
only argument, or its arguments, if these are several. -/
inductive Operands : List (Datum Float) → List (Datum Float) → Prop
  | list (place : Option Place) (xs : List (Datum Float)) : Operands [.list place xs] xs
  | several (a b : Datum Float) (ds : List (Datum Float)) : Operands (a :: b :: ds) (a :: b :: ds)

/-- A call for the least or the greatest gives a value that is ahead of all of them. -/
theorem apply_extreme (hfn : fn = .min ∨ fn = .max) {ds xs : List (Datum Float)}
    (hoperands : Operands ds xs) (hnonempty : xs ≠ [])
    (h : ∀ x ∈ xs, ∀ y ∈ xs, Comparable x y) :
    ∃ m ∈ xs, fn.apply ds = .ok m ∧ ∀ x ∈ xs, fn.Ahead m x := by
  obtain ⟨d, rest, rfl⟩ := List.exists_cons_of_ne_nil hnonempty
  obtain ⟨m, hm, hrun, hahead⟩ := extreme_run hfn h
  have happly : fn.apply ds = fn.extremeOf ds := by
    obtain rfl | rfl := hfn <;> cases hoperands <;> rfl
  refine ⟨m, hm, ?_, hahead⟩
  rw [happly, ← hrun]
  cases hoperands <;> rfl

end Helper

namespace Datum

open Helper
open Rule (evalOn_call)

variable {data a b : Datum Float} {r s : Rule Float}

theorem evalOn_comparison (hr : r.evalOn data = .ok a) (hs : s.evalOn data = .ok b)
    (op : CompareOp) : Rule.evalOn data (.compare r [(op, s)]) = (op.holds a b).map .bool := by
  rw [Rule.evalOn_compare, hr]
  show (Rule.evalLinks data a [(op, s)]).map _ = _
  rw [Rule.evalLinks_cons, hs]
  show ((op.holds a b).bind fun t => if t then Rule.evalLinks data b [] else .ok false).map _ = _
  obtain _ | (_ | _) := op.holds a b <;> rfl

/-- **Order and equality agree**, but for an infinity and itself. Of two numbers (truth values and
infinities among them) or two texts, exactly one of `<`, `==` and `>` holds, `<=` holds if `<` or
`==` does unless the values are one infinity, `>=` is `<=` the other way round, and `<` is
transitive. Of such values the least is in the list, is less than or equal to all of them, and `<=`
holds of it and them, again unless they are one infinity; so it is with the greatest. -/
theorem order_agrees (data : Datum Float) :
    (∀ (a b : Datum Float) (r s : Rule Float),
      r.evalOn data = .ok a → s.evalOn data = .ok b → Comparable a b → ∃ o : Ordering,
        Rule.evalOn data (.compare r [(.lt, s)]) = .ok (.bool (o == .lt)) ∧
        Rule.evalOn data (.compare r [(.eq, s)]) = .ok (.bool (o == .eq)) ∧
        Rule.evalOn data (.compare r [(.gt, s)]) = .ok (.bool (o == .gt)) ∧
        Rule.evalOn data (.compare r [(.le, s)]) =
          .ok (.bool ((o == .lt || o == .eq) && !(o == .eq && a.isInfinity))) ∧
        Rule.evalOn data (.compare r [(.ge, s)]) = Rule.evalOn data (.compare s [(.le, r)])) ∧
    (∀ (a b c : Datum Float) (r s t : Rule Float),
      r.evalOn data = .ok a → s.evalOn data = .ok b → t.evalOn data = .ok c →
      Comparable a b → Comparable b c →
      Rule.evalOn data (.compare r [(.lt, s)]) = .ok (.bool true) →
      Rule.evalOn data (.compare s [(.lt, t)]) = .ok (.bool true) →
      Rule.evalOn data (.compare r [(.lt, t)]) = .ok (.bool true)) ∧
    ∀ (args : List (Rule Float)) (ds xs : List (Datum Float)),
      Rule.evalMany data args = .ok ds → Operands ds xs → xs ≠ [] →
      (∀ x ∈ xs, ∀ y ∈ xs, Comparable x y) →
      (∃ m ∈ xs, Rule.evalOn data (.call .min args) = .ok m ∧ ∀ x ∈ xs,
        (CompareOp.lt.holds m x = .ok true ∨ CompareOp.eq.holds m x = .ok true) ∧
        CompareOp.le.holds m x = .ok !(m.equals x && m.isInfinity)) ∧
      ∃ m ∈ xs, Rule.evalOn data (.call .max args) = .ok m ∧ ∀ x ∈ xs,
        (CompareOp.gt.holds m x = .ok true ∨ CompareOp.eq.holds m x = .ok true) ∧
        CompareOp.ge.holds m x = .ok !(m.equals x && m.isInfinity) := by
  refine ⟨fun a b r s hr hs h => ?_, fun a b c r s t hr hs ht hab hbc hlt hlt' => ?_,
    fun args ds xs hargs hoperands hnonempty h => ⟨?_, ?_⟩⟩
  · obtain ⟨o, ho⟩ := h.ordered
    have hcompare := evalOn_comparison hr hs
    refine ⟨o, ?_, ?_, ?_, ?_, ?_⟩
    · rw [hcompare, ho.lt_holds]
      rfl
    · rw [hcompare, ho.eq_holds]
      rfl
    · rw [hcompare, ho.gt_holds]
      rfl
    · rw [hcompare, ho.holds (by simp)]
      cases o <;> rfl
    · rw [hcompare, evalOn_comparison hs hr, ho.ge_holds]
  · obtain ⟨o, ho⟩ := hab.ordered
    obtain ⟨o', ho'⟩ := hbc.ordered
    rw [evalOn_comparison hr hs, ho.lt_holds] at hlt
    rw [evalOn_comparison hs ht, ho'.lt_holds] at hlt'
    obtain rfl : o = .lt := by cases o <;> first | rfl | cases hlt
    obtain rfl : o' = .lt := by cases o' <;> first | rfl | cases hlt'
    rw [evalOn_comparison hr ht, (ho.trans ho' nofun nofun).lt_holds]
    rfl
  · obtain ⟨m, hm, happly, hahead⟩ := apply_extreme (.inl rfl) hoperands hnonempty h
    exact ⟨m, hm, (evalOn_call hargs).trans happly, fun x hx => AtMost.holds_left (hahead x hx)⟩
  · obtain ⟨m, hm, happly, hahead⟩ := apply_extreme (.inr rfl) hoperands hnonempty h
    exact ⟨m, hm, (evalOn_call hargs).trans happly, fun x hx => AtMost.holds_right (hahead x hx)⟩

-- A truth value, a number and an infinity, in order.
theorem order_agrees_three :
    ∃ (a b c : Datum Float) (r s t : Rule Float),
      a = .bool false ∧ b = .num 0.5 ∧ c = .num (1.0 / 0.0) ∧
      r = .lit (.bool false) ∧ s = .lit (.num 0.5) ∧ t = .lit (.num (1.0 / 0.0)) ∧
      Comparable a b ∧ Comparable b c ∧
      (∃ o : Ordering, Rule.evalOn .null (.compare r [(.lt, s)]) = .ok (.bool (o == .lt)) ∧
        Rule.evalOn .null (.compare r [(.eq, s)]) = .ok (.bool (o == .eq)) ∧
        Rule.evalOn .null (.compare r [(.gt, s)]) = .ok (.bool (o == .gt))) ∧
      Rule.evalOn .null (.compare r [(.lt, t)]) = .ok (.bool true) ∧
      (∃ m ∈ [b, c, a], Rule.evalOn .null (.call .min [s, t, r]) = .ok m ∧ ∀ x ∈ [b, c, a],
        (CompareOp.lt.holds m x = .ok true ∨ CompareOp.eq.holds m x = .ok true) ∧
        CompareOp.le.holds m x = .ok !(m.equals x && m.isInfinity)) ∧
      ∃ m ∈ [b, c, a], Rule.evalOn .null (.call .max [s, t, r]) = .ok m ∧ ∀ x ∈ [b, c, a],
        (CompareOp.gt.holds m x = .ok true ∨ CompareOp.eq.holds m x = .ok true) ∧
        CompareOp.ge.holds m x = .ok !(m.equals x && m.isInfinity) := by
  obtain ⟨hcompare, htrans, hextreme⟩ := order_agrees .null
  have hab : Comparable (.bool false) (.num 0.5) := .numbers rfl rfl rfl rfl
  have hbc : Comparable (.num 0.5) (.num (1.0 / 0.0)) := .numbers rfl rfl rfl rfl
  have hnumber : ∀ x ∈ [.num 0.5, .num (1.0 / 0.0), .bool false],
      ∃ n, number? x = some n ∧ (n == n) = true :=
    List.forall_mem_cons.2 ⟨⟨_, rfl, rfl⟩, List.forall_mem_cons.2 ⟨⟨_, rfl, rfl⟩,
      List.forall_mem_cons.2 ⟨⟨_, rfl, rfl⟩, nofun⟩⟩⟩
  obtain ⟨o, hlt, heq, hgt, -⟩ :=
    hcompare _ _ (.lit (.bool false)) (.lit (.num 0.5)) rfl rfl hab
  obtain ⟨hmin, hmax⟩ :=
    hextreme [.lit (.num 0.5), .lit (.num (1.0 / 0.0)), .lit (.bool false)] _ _ rfl
      (.several _ _ _) (List.cons_ne_nil _ _) fun x hx y hy => by
        obtain ⟨n, hn, hself⟩ := hnumber x hx
        obtain ⟨k, hk, hself'⟩ := hnumber y hy
        exact .numbers hn hk hself hself'
  exact ⟨_, _, _, _, _, _, rfl, rfl, rfl, rfl, rfl, rfl, hab, hbc, ⟨o, hlt, heq, hgt⟩,
    htrans _ _ _ _ (.lit (.num 0.5)) _ rfl rfl rfl hab hbc rfl rfl, hmin, hmax⟩

/-- An infinity is equal to itself, but `<=` does not hold of it and itself, also if it is the least
of a list. -/
theorem infinity_not_le_itself :
    ∃ (a : Datum Float) (r : Rule Float), a = .num (1.0 / 0.0) ∧ r = .lit (.num (1.0 / 0.0)) ∧
      Comparable a a ∧ r.evalOn .null = .ok a ∧
      Rule.evalOn .null (.compare r [(.eq, r)]) = .ok (.bool true) ∧
      Rule.evalOn .null (.compare r [(.le, r)]) = .ok (.bool false) ∧
      Rule.evalOn .null (.compare r [(.ge, r)]) = .ok (.bool false) ∧
      Rule.evalOn .null (.call .min [.list [r]]) = .ok a ∧
      CompareOp.le.holds a a = .ok false :=
  ⟨_, _, rfl, rfl, .numbers rfl rfl rfl rfl, rfl, rfl, rfl, rfl, rfl, rfl⟩

end Datum

end PageExtract
