/-
Arithmetic in rules, without rounding errors.

On rational numbers the operator `%` and the function `round` are what their names say, also for
negative numbers. Truth values count as numbers here as everywhere:

* `ArithOp.apply_mod` — the operation on two numbers;
* `Helper.apply_round`, `Helper.apply_round_one` — the two forms of a call of `round`;
* `Rule.evalOn_mod` — `%` is the floored remainder, and there is none by zero;
* `Rule.evalOn_round` — `round` rounds half to even.
-/
import PageExtract.Proofs.Number.HalfEven
import PageExtract.Rule.Eval

namespace PageExtract

/-! ### Single operations and calls -/

section

variable {ν : Type} [Numeric ν] {a b : Datum ν} {x y : ν}

theorem ArithOp.apply_mod (ha : a.number? = some x) (hb : b.number? = some y) :
    ArithOp.mod.apply a b = (ArithOp.mod.onNumbers x y).map .num := by
  unfold ArithOp.apply
  split
  · contradiction
  · contradiction
  · rw [ha, hb]
    rfl

theorem Datum.numberArg_of_number (fn : String) (ha : a.number? = some x) :
    a.numberArg fn = .ok x := by
  rw [numberArg, ha]

theorem Helper.apply_round (ha : a.number? = some x) (hb : b.number? = some y) :
    Helper.round.apply [a, b] = .ok (.num (Numeric.roundHalfEven x y)) := by
  rw [Helper.apply, Datum.numberArg_of_number _ ha, Datum.numberArg_of_number _ hb]
  rfl

/-- Without digits a number is rounded to a whole one. -/
theorem Helper.apply_round_one (ha : a.number? = some x) :
    Helper.round.apply [a] = .ok (.num (Numeric.roundHalfEven x 0.0)) := by
  rw [Helper.apply, Datum.numberArg_of_number _ ha]
  rfl

end

/-! ### Exact arithmetic -/

namespace Rule

variable {data a b : Datum ℚ} {l r : Rule ℚ} {x y : ℚ} {d : ℤ}

/-- **`%` is the floored remainder.** By a number other than zero it gives what is left after taking
away the divisor as often as the floor of the quotient says. That is from zero up to the divisor,
without the divisor, and it is the same for two numbers exactly if they differ by a whole multiple of
the divisor. By zero there is no remainder. -/
theorem evalOn_mod (hl : l.evalOn data = .ok a) (hr : r.evalOn data = .ok b)
    (hx : a.number? = some x) (hy : b.number? = some y) :
    (y ≠ 0 → ∃ z, evalOn data (.arith .mod l r) = .ok (.num z) ∧ z = x - y * ⌊x / y⌋ ∧
      (0 < y → 0 ≤ z ∧ z < y) ∧ (y < 0 → y < z ∧ z ≤ 0) ∧
      ∀ l' a' x', evalOn data l' = .ok a' → a'.number? = some x' →
        (evalOn data (.arith .mod l' r) = .ok (.num z) ↔ ∃ k : ℤ, x' = x + k * y)) ∧
    (y = 0 → evalOn data (.arith .mod l r) = .error .divisionByZero) := by
  have hvalue : ∀ {l' a' x'}, evalOn data l' = .ok a' → a'.number? = some x' →
      evalOn data (.arith .mod l' r) = (ArithOp.mod.onNumbers x' y).map .num :=
    fun hl' hx' => (evalOn_arith .mod hl' hr).trans (ArithOp.apply_mod hx' hy)
  constructor
  · intro hzero
    have hquotient : ∀ x', ArithOp.mod.onNumbers x' y = .ok (Numeric.flooredMod x' y) := by
      intro x'
      rw [ArithOp.onNumbers, Numeric.zero_literal, if_neg (by simpa using hzero)]
    refine ⟨Numeric.flooredMod x y, ?_, Numeric.flooredMod_eq x hzero,
      Numeric.flooredMod_of_pos x, Numeric.flooredMod_of_neg x, fun l' a' x' hl' hx' => ?_⟩
    · rw [hvalue hl hx, hquotient]
      rfl
    · rw [hvalue hl' hx', hquotient, ← Numeric.flooredMod_eq_iff hzero]
      constructor
      · intro h
        exact Datum.num.inj (Except.ok.inj h)
      · intro h
        rw [h]
        rfl
  · rintro rfl
    rw [hvalue hl hx, ArithOp.onNumbers, Numeric.zero_literal, if_pos (by simp)]
    rfl

-- Minus seven by three, and by zero.
theorem evalOn_mod_seven :
    (∃ z, evalOn .null (.arith .mod (.lit (.num (-7))) (.lit (.num 3))) = .ok (.num z) ∧
      z = (2 : ℚ)) ∧
    evalOn .null (.arith .mod (.lit (.num (-7))) (.lit (.num (0 : ℚ)))) =
      .error .divisionByZero := by
  have hseven : evalOn (.null : Datum ℚ) (.lit (.num (-7))) = .ok (.num (-7)) := rfl
  have hthree : evalOn (.null : Datum ℚ) (.lit (.num 3)) = .ok (.num 3) := rfl
  have hzero : evalOn (.null : Datum ℚ) (.lit (.num 0)) = .ok (.num 0) := rfl
  constructor
  · obtain ⟨z, heval, hz, -⟩ := (evalOn_mod hseven hthree rfl rfl).1 (by norm_num)
    refine ⟨z, heval, hz.trans ?_⟩
    have hfloor : ⌊(-7 : ℚ) / 3⌋ = -3 := by
      rw [Int.floor_eq_iff]
      norm_num
    rw [hfloor]
    norm_num
  · exact (evalOn_mod hseven hzero rfl rfl).2 rfl

/-- **`round` rounds half to even.** A number is rounded to a whole number of units of the last digit
that is asked for, which is no more than half a unit and a band of 1e-9 units away, and which is even
if the number is exactly between two of them. Rounding is odd, keeps the order and changes no rounded
number. -/
theorem evalOn_round (hl : l.evalOn data = .ok a) (hr : r.evalOn data = .ok b)
    (hx : a.number? = some x) (hd : b.number? = some (d : ℚ)) :
    ∃ (z u : ℚ) (m : ℤ), evalOn data (.call .round [l, r]) = .ok (.num z) ∧
      (d = 0 → evalOn data (.call .round [l]) = .ok (.num z)) ∧
      z = Numeric.roundHalfEven x d ∧ u = 10 ^ (-d) ∧ z = m * u ∧
      |z - x| ≤ (1 / 2 + 10 ^ (-9 : ℤ)) * u ∧ (∀ k : ℤ, x = (k + 1 / 2) * u → Even m) ∧
      Numeric.roundHalfEven (-x) d = -z ∧ (∀ y, x ≤ y → z ≤ Numeric.roundHalfEven y d) ∧
      Numeric.roundHalfEven z d = z := by
  obtain ⟨m, hunits, hdistance, heven⟩ := Numeric.exists_units x d
  refine ⟨_, _, m, ?_, ?_, rfl, rfl, hunits, hdistance, heven, Numeric.roundHalfEven_neg x d,
    fun y hxy => Numeric.roundHalfEven_mono hxy d, Numeric.roundHalfEven_self x d⟩
  · rw [evalOn_call (evalMany_cons hl (evalMany_cons hr rfl)), Helper.apply_round hx hd]
  · rintro rfl
    rw [evalOn_call (evalMany_cons hl rfl), Helper.apply_round_one hx, Numeric.zero_literal,
      Int.cast_zero]

-- Five quarters to one digit.
theorem evalOn_round_quarters :
    ∃ (z u : ℚ) (m : ℤ),
      evalOn .null (.call .round [.lit (.num (5 / 4)), .lit (.num 1)]) = .ok (.num z) ∧
      u = 10 ^ (-1 : ℤ) ∧ z = m * u ∧ |z - 5 / 4| ≤ (1 / 2 + 10 ^ (-9 : ℤ)) * u ∧ Even m ∧
      Numeric.roundHalfEven (-(5 / 4)) 1 = -z ∧ z ≤ Numeric.roundHalfEven 2 1 ∧
      Numeric.roundHalfEven z 1 = z := by
  have hquarters : evalOn (.null : Datum ℚ) (.lit (.num (5 / 4))) = .ok (.num (5 / 4)) := rfl
  have hone : evalOn (.null : Datum ℚ) (.lit (.num ((1 : ℤ) : ℚ))) = .ok (.num ((1 : ℤ) : ℚ)) := rfl
  obtain ⟨z, u, m, heval, -, -, rfl, hunits, hdistance, heven, hneg, hmono, hself⟩ :=
    evalOn_round hquarters hone rfl rfl
  rw [Int.cast_one] at heval hneg hmono hself
  exact ⟨z, _, m, heval, rfl, hunits, hdistance, heven 12 (by norm_num), hneg,
    hmono 2 (by norm_num), hself⟩

end Rule

end PageExtract
