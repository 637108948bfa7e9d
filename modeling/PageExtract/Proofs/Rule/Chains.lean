/-
Chains of comparisons.

A chain compares each operand with the one before it, and nothing after a link that does not hold
is looked at. The same links can be written out, each as a comparison of its own and with `and`
between them. Then an operand between two links is evaluated once for each of them, but it has the
same value both times and is never reached earlier than in the chain, so that nothing changes:

* `Rule.comparisons`, `Rule.joinAnd` — the links of a chain written out, and rules with `and`
  between them;
* `Rule.evalOn_and_assoc`, `Rule.evalOn_joinAnd_cons` — the order in which `and` is applied does
  not matter;
* `Rule.evalOn_compare_cons` — a chain is its first link `and` the chain of the others;
* `Rule.eval_chain` — a chain is the conjunction of its links.
-/
import PageExtract.Rule.Eval

namespace PageExtract.Rule

variable {ν : Type}

/-- The links of a chain, each as a comparison of its own. -/
def comparisons (left : Rule ν) : List (CompareOp × Rule ν) → List (Rule ν)
  | [] => []
  | (op, right) :: links => .compare left [(op, right)] :: comparisons right links

/-- Rules with `and` between them, which associates to the left. -/
def joinAnd (first : Rule ν) (rules : List (Rule ν)) : Rule ν := rules.foldl (.logic .and) first

variable [Numeric ν] (data : Datum ν)

/-! ### Conjunctions -/

theorem evalOn_and (l r : Rule ν) : evalOn data (.logic .and l r) =
    (evalOn data l).bind fun d => if d.truthy then evalOn data r else .ok d := by
  rw [evalOn]
  rfl

/-- The right side of `and` counts through its value only. -/
theorem evalOn_and_congr (l : Rule ν) {r r' : Rule ν} (h : evalOn data r = evalOn data r') :
    evalOn data (.logic .and l r) = evalOn data (.logic .and l r') := by
  rw [evalOn_and, evalOn_and, h]

theorem evalOn_and_assoc (l m r : Rule ν) :
    evalOn data (.logic .and (.logic .and l m) r) =
      evalOn data (.logic .and l (.logic .and m r)) := by
  rw [evalOn_and, evalOn_and, evalOn_and, evalOn_and]
  cases evalOn data l with
  | error e => rfl
  | ok d =>
    show (if d.truthy then evalOn data m else .ok d).bind _ =
      if d.truthy then (evalOn data m).bind _ else .ok d
    by_cases hd : d.truthy
    · rw [if_pos hd, if_pos hd]
    · -- A left side that does not count as true is passed on twice.
      rw [if_neg hd, if_neg hd]
      exact if_neg hd

/-- A conjunction may be read from its other end. -/
theorem evalOn_joinAnd_cons (c c' : Rule ν) (cs : List (Rule ν)) :
    evalOn data (joinAnd c (c' :: cs)) = evalOn data (.logic .and c (joinAnd c' cs)) := by
  induction cs generalizing c c' with
  | nil => rfl
  | cons c'' cs ih =>
    calc evalOn data (joinAnd (.logic .and c c') (c'' :: cs))
        = evalOn data (.logic .and (.logic .and c c') (joinAnd c'' cs)) := ih _ c''
      _ = evalOn data (.logic .and c (.logic .and c' (joinAnd c'' cs))) :=
          evalOn_and_assoc data c c' _
      _ = evalOn data (.logic .and c (joinAnd c' (c'' :: cs))) :=
          evalOn_and_congr data c (ih c' c'').symm

/-! ### Chains -/

theorem evalOn_compare (first : Rule ν) (links : List (CompareOp × Rule ν)) :
    evalOn data (.compare first links) =
      (evalOn data first).bind fun a => (evalLinks data a links).map .bool := by
  rw [evalOn]
  cases evalOn data first with
  | error e => rfl
  | ok a => cases evalLinks data a links <;> rfl

theorem evalLinks_cons (a : Datum ν) (op : CompareOp) (right : Rule ν)
    (links : List (CompareOp × Rule ν)) : evalLinks data a ((op, right) :: links) =
      (evalOn data right).bind fun d => (op.holds a d).bind fun b =>
        if b then evalLinks data d links else .ok false := by
  rw [evalLinks]
  rfl

/-- A chain is its first link and, if that holds, the chain that begins with the operand after
it. -/
theorem evalOn_compare_cons (first right : Rule ν) (op : CompareOp)
    (link : CompareOp × Rule ν) (links : List (CompareOp × Rule ν)) :
    evalOn data (.compare first ((op, right) :: link :: links)) =
      evalOn data
        (.logic .and (.compare first [(op, right)]) (.compare right (link :: links))) := by
  rw [evalOn_and, evalOn_compare, evalOn_compare, evalOn_compare]
  simp only [evalLinks_cons data _ op right]
  cases evalOn data first with
  | error e => rfl
  | ok a =>
    cases evalOn data right with
    | error e => rfl
    | ok d =>
      -- The operand between the links has a value, so that evaluating it again is no obstacle.
      show ((op.holds a d).bind _).map _ = (((op.holds a d).bind _).map _).bind _
      cases op.holds a d with
      | error e => rfl
      | ok b => cases b <;> rfl

/-- A chain and its links written out have the same value or fail in the same way. -/
theorem evalOn_compare_eq_joinAnd (first right : Rule ν) (op : CompareOp)
    (links : List (CompareOp × Rule ν)) :
    evalOn data (.compare first ((op, right) :: links)) =
      evalOn data (joinAnd (.compare first [(op, right)]) (comparisons right links)) := by
  induction links generalizing first right op with
  | nil => rfl
  | cons link links ih =>
    obtain ⟨op', right'⟩ := link
    calc evalOn data (.compare first ((op, right) :: (op', right') :: links))
        = evalOn data (.logic .and (.compare first [(op, right)])
            (.compare right ((op', right') :: links))) := evalOn_compare_cons data ..
      _ = evalOn data (.logic .and (.compare first [(op, right)])
            (joinAnd (.compare right [(op', right')]) (comparisons right' links))) :=
          evalOn_and_congr data _ (ih right right' op')
      _ = evalOn data (joinAnd (.compare first [(op, right)])
            (.compare right [(op', right')] :: comparisons right' links)) :=
          (evalOn_joinAnd_cons data ..).symm

/-- **A chain is the conjunction of its links.** On all data, a chain of comparisons and its links,
each as a comparison of its own and with `and` between them, have one outcome: the same truth value,
or the same reason for having none. -/
theorem eval_chain (first right : Rule ν) (op : CompareOp) (links : List (CompareOp × Rule ν))
    (data : Members (Value ν)) :
    ∃ outcome : Except RuleError Bool,
      (Rule.compare first ((op, right) :: links)).eval data = outcome.map .bool ∧
      (joinAnd (.compare first [(op, right)]) (comparisons right links)).eval data =
        outcome.map .bool := by
  have hchain : (Rule.compare first ((op, right) :: links)).eval data =
      ((evalOn (.locate [] (.map data)) first).bind fun a =>
        evalLinks (.locate [] (.map data)) a ((op, right) :: links)).map .bool := by
    unfold eval
    rw [evalOn_compare]
    cases evalOn (.locate [] (.map data)) first with
    | error e => rfl
    | ok a =>
      show ((evalLinks (.locate [] (.map data)) a ((op, right) :: links)).map _).bind _ =
        (evalLinks (.locate [] (.map data)) a ((op, right) :: links)).map _
      cases evalLinks (.locate [] (.map data)) a ((op, right) :: links) <;> rfl
  refine ⟨_, hchain, ?_⟩
  rw [← hchain]
  unfold eval
  rw [evalOn_compare_eq_joinAnd]

-- The second link does not hold, so the absent field after it is no error.
example : (Rule.compare (.lit (.num 1.0)) [(.lt, .lit (.num 2.0)), (.lt, .lit (.bool true)),
    (.eq, .path .root [.member "gone"])]).eval [] =
      (.ok (.bool false) : Except RuleError (Value Float)) := by rfl

end PageExtract.Rule
