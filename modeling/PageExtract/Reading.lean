/-
What is read off the front of a list.

A reader looks at the front of a list of characters or tokens and answers a value together with
what is left. The bound in the type says how much shorter the rest is, so that readers that call
each other end.

* `Reading τ α n` : a value and a rest of fewer than `n` elements;
* `Reading.widen`, `Reading.map` : the same under a weaker bound, and with another value;
* `length_lt_cons`, `length_drop_lt_cons` : what is left after one element, or two, is shorter.
-/

namespace PageExtract

/-- A value read off the front of a list, and the rest of the list. -/
structure Reading (τ α : Type) (n : Nat) where
  value : α
  rest : List τ
  short : rest.length < n

theorem length_lt_cons {τ : Type} (t : τ) (ts : List τ) : ts.length < (t :: ts).length :=
  Nat.lt_succ_self ts.length

theorem length_drop_lt_cons {τ : Type} (t : τ) (ts : List τ) :
    (ts.drop 1).length < (t :: ts).length := by
  rw [List.length_drop]
  exact Nat.lt_succ_of_le (Nat.sub_le _ _)

namespace Reading

variable {τ α β : Type} {n m : Nat}

/-- The same reading under a weaker bound. -/
def widen (r : Reading τ α n) (h : n ≤ m) : Reading τ α m :=
  ⟨r.value, r.rest, Nat.lt_of_lt_of_le r.short h⟩

/-- The same rest with another value. -/
def map (f : α → β) (r : Reading τ α n) : Reading τ β n := ⟨f r.value, r.rest, r.short⟩

@[simp] theorem value_widen (r : Reading τ α n) (h : n ≤ m) : (r.widen h).value = r.value := rfl

@[simp] theorem rest_widen (r : Reading τ α n) (h : n ≤ m) : (r.widen h).rest = r.rest := rfl

@[simp] theorem value_map (f : α → β) (r : Reading τ α n) : (r.map f).value = f r.value := rfl

@[simp] theorem rest_map (f : α → β) (r : Reading τ α n) : (r.map f).rest = r.rest := rfl

end Reading

end PageExtract
