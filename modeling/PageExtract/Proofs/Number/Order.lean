/-
The order of doubles.

Doubles that are numbers have a rank: by sign, then by exponent, then by mantissa, with the
infinities at either end and both zeros in the middle. Comparing two doubles compares their ranks,
and what is not a number compares with nothing. So the order is transitive, also where something is
not a number, and on numbers it is total. A number is a double that is at least itself.

* `rank?`, `compare_eq` — ranks, and comparison by ranks;
* `lt_iff`, `le_iff`, `lt_trans`, `le_trans`, `le_of_not_lt_number` — the order;
* `least_spec`, `greatest_spec`, `least_map_spec`, `greatest_map_spec` — the extremes of some
  numbers;
* `unit_stretch` — what lies between the extremes.
-/
import Mathlib.Data.Prod.Lex
import Mathlib.Order.Monotone.Basic
import PageExtract.Number.Basic
import PageExtract.Proofs.Number.Unsigned

namespace PageExtract.Double

open Float.Model Float.Model.UnpackedFloat

/-! ### Ranks -/

/-- The place of a double in the order, if it is a number. -/
def rank? : UnpackedFloat → Option (ℤ ×ₗ ℤ ×ₗ ℤ)
  | .notANumber => none
  | .infinity .negative => some (toLex (-2, toLex (0, 0)))
  | .finite .negative m e _ => some (toLex (-1, toLex (-e, -m)))
  | .zero _ => some (toLex (0, toLex (0, 0)))
  | .finite .positive m e _ => some (toLex (1, toLex (e, m)))
  | .infinity .positive => some (toLex (2, toLex (0, 0)))

theorem compare_natCast (m n : ℕ) : compare (m : ℤ) n = compare m n := by
  have hcast : StrictMono fun k : ℕ => (k : ℤ) := fun a b h => Int.ofNat_lt.2 h
  rw [← cmp_eq_compare, ← cmp_eq_compare]
  exact hcast.cmp_map_eq m n

theorem compare_neg (m n : ℤ) : compare (-m) (-n) = compare n m := by
  have hneg : StrictAnti fun k : ℤ => -k := fun a b h => Int.neg_lt_neg h
  rw [← cmp_eq_compare, ← cmp_eq_compare]
  exact hneg.cmp_map_eq m n

/-- Doubles are compared by their ranks. -/
theorem compare_eq (u v : UnpackedFloat) :
    u.compare v = (rank? u).bind fun a => (rank? v).map (compare a) := by
  cases u with
  | notANumber => rfl
  | infinity s =>
    cases v with
    | notANumber => cases s <;> rfl
    | infinity t => cases s <;> cases t <;> rfl
    | zero t => cases s <;> rfl
    | finite t n k h => cases s <;> cases t <;> rfl
  | zero s =>
    cases v with
    | notANumber => rfl
    | infinity t => cases t <;> rfl
    | zero t => rfl
    | finite t n k h => cases t <;> rfl
  | finite s m e h =>
    cases v with
    | notANumber => cases s <;> rfl
    | infinity t => cases s <;> cases t <;> rfl
    | zero t => cases s <;> rfl
    | finite t n k h' =>
      -- Only numbers of one sign are compared by exponent and mantissa.
      cases s with
      | positive =>
        cases t with
        | positive =>
          show some _ = some (Ordering.then .eq ((compare e k).then (compare (m : ℤ) n)))
          rw [compare_natCast]
          rfl
        | negative => rfl
      | negative =>
        cases t with
        | positive => rfl
        | negative =>
          show some ((compare e k).then (compare m n)).swap =
            some (Ordering.then .eq ((compare (-e) (-k)).then (compare (-(m : ℤ)) (-n))))
          rw [compare_neg, compare_neg, compare_natCast, Ordering.swap_then, Int.compare_swap,
            Nat.compare_swap]
          rfl

/-! ### Order -/

section

variable {x y z : Float}

protected theorem lt_iff : x < y ↔ ∃ a b, rank? x.toModel.unpack = some a ∧
    rank? y.toModel.unpack = some b ∧ a < b := by
  have hlt : x < y ↔ (x.toModel.unpack.compare y.toModel.unpack == some .lt) = true :=
    decide_eq_true_iff
  rw [hlt, beq_iff_eq, compare_eq, Option.bind_eq_some_iff]
  constructor
  · rintro ⟨a, ha, h⟩
    obtain ⟨b, hb, h⟩ := Option.map_eq_some_iff.1 h
    exact ⟨a, b, ha, hb, compare_lt_iff_lt.1 h⟩
  · rintro ⟨a, b, ha, hb, h⟩
    exact ⟨a, ha, Option.map_eq_some_iff.2 ⟨b, hb, compare_lt_iff_lt.2 h⟩⟩

protected theorem le_iff : x ≤ y ↔ ∃ a b, rank? x.toModel.unpack = some a ∧
    rank? y.toModel.unpack = some b ∧ a ≤ b := by
  have hle : x ≤ y ↔ (x.toModel.unpack.compare y.toModel.unpack).any (·.isLE) = true :=
    decide_eq_true_iff
  rw [hle, compare_eq, Option.any_eq_true]
  constructor
  · rintro ⟨o, ho, h⟩
    obtain ⟨a, ha, ho⟩ := Option.bind_eq_some_iff.1 ho
    obtain ⟨b, hb, rfl⟩ := Option.map_eq_some_iff.1 ho
    exact ⟨a, b, ha, hb, compare_le_iff_le.1 (Ordering.isLE_iff_ne_gt.1 h)⟩
  · rintro ⟨a, b, ha, hb, h⟩
    exact ⟨compare a b, Option.bind_eq_some_iff.2 ⟨a, ha, Option.map_eq_some_iff.2 ⟨b, hb, rfl⟩⟩,
      Ordering.isLE_iff_ne_gt.2 (compare_le_iff_le.2 h)⟩

protected theorem lt_trans (hxy : x < y) (hyz : y < z) : x < z := by
  obtain ⟨a, b, ha, hb, hab⟩ := Double.lt_iff.1 hxy
  obtain ⟨b', c, hb', hc, hbc⟩ := Double.lt_iff.1 hyz
  obtain rfl := Option.some_inj.1 (hb.symm.trans hb')
  exact Double.lt_iff.2 ⟨a, c, ha, hc, hab.trans hbc⟩

protected theorem lt_irrefl (x : Float) : ¬ x < x := by
  intro h
  obtain ⟨a, b, ha, hb, hab⟩ := Double.lt_iff.1 h
  obtain rfl := Option.some_inj.1 (ha.symm.trans hb)
  exact hab.false

protected theorem le_trans (hxy : x ≤ y) (hyz : y ≤ z) : x ≤ z := by
  obtain ⟨a, b, ha, hb, hab⟩ := Double.le_iff.1 hxy
  obtain ⟨b', c, hb', hc, hbc⟩ := Double.le_iff.1 hyz
  obtain rfl := Option.some_inj.1 (hb.symm.trans hb')
  exact Double.le_iff.2 ⟨a, c, ha, hc, hab.trans hbc⟩

protected theorem lt_of_lt_of_le (hxy : x < y) (hyz : y ≤ z) : x < z := by
  obtain ⟨a, b, ha, hb, hab⟩ := Double.lt_iff.1 hxy
  obtain ⟨b', c, hb', hc, hbc⟩ := Double.le_iff.1 hyz
  obtain rfl := Option.some_inj.1 (hb.symm.trans hb')
  exact Double.lt_iff.2 ⟨a, c, ha, hc, hab.trans_le hbc⟩

protected theorem le_of_lt (h : x < y) : x ≤ y := by
  obtain ⟨a, b, ha, hb, hab⟩ := Double.lt_iff.1 h
  exact Double.le_iff.2 ⟨a, b, ha, hb, hab.le⟩

/-- What is at most something is a number. -/
theorem number_of_le (h : x ≤ y) : x ≤ x := by
  obtain ⟨a, -, ha, -⟩ := Double.le_iff.1 h
  exact Double.le_iff.2 ⟨a, a, ha, ha, le_rfl⟩

/-- What is at least something is a number. -/
theorem number_of_ge (h : x ≤ y) : y ≤ y := by
  obtain ⟨-, b, -, hb, -⟩ := Double.le_iff.1 h
  exact Double.le_iff.2 ⟨b, b, hb, hb, le_rfl⟩

/-- Of two numbers, one that is not less is at least as large. -/
theorem le_of_not_lt_number (hx : x ≤ x) (hy : y ≤ y) (h : ¬ x < y) : y ≤ x := by
  obtain ⟨a, -, ha, -⟩ := Double.le_iff.1 hx
  obtain ⟨b, -, hb, -⟩ := Double.le_iff.1 hy
  exact Double.le_iff.2 ⟨b, a, hb, ha, not_lt.1 fun hab => h (Double.lt_iff.2 ⟨a, b, ha, hb, hab⟩)⟩

/-- A number equals itself. -/
theorem beq_self_of_number (hx : x ≤ x) : (x == x) = true := by
  obtain ⟨a, -, ha, -⟩ := Double.le_iff.1 hx
  show (x.toModel.unpack.compare x.toModel.unpack == some .eq) = true
  rw [compare_eq, ha]
  simp

end

/-! ### Extremes -/

/-- A choice between two numbers that is on one side of both, made over and over again, is on that
side of all. -/
theorem foldl_choice (side : Float → Float → Prop) {choose : Float → Float → Float}
    (htrans : ∀ {x y z}, side x y → side y z → side x z) (hself : ∀ {x : Float}, x ≤ x → side x x)
    (hchoose : ∀ {x y : Float}, x ≤ x → y ≤ y →
      (choose x y = x ∨ choose x y = y) ∧ side (choose x y) x ∧ side (choose x y) y)
    {x : Float} {xs : List Float} (hnumbers : ∀ y ∈ x :: xs, y ≤ y) :
    xs.foldl choose x ∈ x :: xs ∧ ∀ y ∈ x :: xs, side (xs.foldl choose x) y := by
  induction xs generalizing x with
  | nil =>
    refine ⟨List.mem_singleton_self x, fun y hy => ?_⟩
    rw [List.mem_singleton.1 hy]
    exact hself (hnumbers x List.mem_cons_self)
  | cons z xs ih =>
    have hx := hnumbers x List.mem_cons_self
    have hz := hnumbers z (List.mem_cons_of_mem x List.mem_cons_self)
    obtain ⟨heither, hsidex, hsidez⟩ := hchoose hx hz
    have hrest : ∀ y ∈ choose x z :: xs, y ≤ y := by
      intro y hy
      obtain rfl | hy := List.mem_cons.1 hy
      · obtain h | h := heither <;> rw [h] <;> assumption
      · exact hnumbers y (List.mem_cons_of_mem x (List.mem_cons_of_mem z hy))
    obtain ⟨hmem, hside⟩ := ih hrest
    have hfirst := hside (choose x z) List.mem_cons_self
    rw [List.foldl_cons]
    constructor
    · obtain h | h := List.mem_cons.1 hmem
      · rw [h]
        obtain h | h := heither <;> rw [h] <;> simp
      · exact List.mem_cons_of_mem x (List.mem_cons_of_mem z h)
    · intro y hy
      obtain rfl | hy := List.mem_cons.1 hy
      · exact htrans hfirst hsidex
      · obtain rfl | hy := List.mem_cons.1 hy
        · exact htrans hfirst hsidez
        · exact hside y (List.mem_cons_of_mem _ hy)

/-- The least of some numbers is one of them and at most each of them. -/
theorem least_spec {x : Float} {xs : List Float} (h : ∀ y ∈ x :: xs, y ≤ y) :
    Numeric.least x xs ∈ x :: xs ∧ ∀ y ∈ x :: xs, Numeric.least x xs ≤ y := by
  refine foldl_choice (· ≤ ·) Double.le_trans id (fun {x y} hx hy => ?_) h
  unfold Numeric.lesser
  rw [beq_self_of_number hy]
  by_cases hlt : y < x
  · rw [decide_eq_true hlt, Bool.true_or, if_pos rfl]
    exact ⟨.inr rfl, Double.le_of_lt hlt, hy⟩
  · rw [decide_eq_false hlt, Bool.not_true, Bool.or_self, if_neg Bool.false_ne_true]
    exact ⟨.inl rfl, hx, le_of_not_lt_number hy hx hlt⟩

/-- The greatest of some numbers is one of them and at least each of them. -/
theorem greatest_spec {x : Float} {xs : List Float} (h : ∀ y ∈ x :: xs, y ≤ y) :
    Numeric.greatest x xs ∈ x :: xs ∧ ∀ y ∈ x :: xs, y ≤ Numeric.greatest x xs := by
  refine foldl_choice (fun x y => y ≤ x) (fun hxy hyz => Double.le_trans hyz hxy) id
    (fun {x y} hx hy => ?_) h
  unfold Numeric.greater
  rw [beq_self_of_number hy]
  by_cases hlt : x < y
  · rw [decide_eq_true hlt, Bool.true_or, if_pos rfl]
    exact ⟨.inr rfl, Double.le_of_lt hlt, hy⟩
  · rw [decide_eq_false hlt, Bool.not_true, Bool.or_self, if_neg Bool.false_ne_true]
    exact ⟨.inl rfl, hx, le_of_not_lt_number hx hy hlt⟩

section

variable {α : Type} {f : α → Float} {a : α} {as : List α} (h : ∀ b ∈ a :: as, f b ≤ f b)

include h

/-- The least value of a function is taken somewhere. -/
theorem least_map_spec :
    (∃ b ∈ a :: as, f b = Numeric.least (f a) (as.map f)) ∧
      ∀ b ∈ a :: as, Numeric.least (f a) (as.map f) ≤ f b := by
  have hnumbers : ∀ y ∈ (a :: as).map f, y ≤ y := List.forall_mem_map.2 h
  obtain ⟨hmem, hle⟩ := least_spec hnumbers
  exact ⟨List.mem_map.1 hmem, fun b hb => hle (f b) (List.mem_map_of_mem hb)⟩

/-- The greatest value of a function is taken somewhere. -/
theorem greatest_map_spec :
    (∃ b ∈ a :: as, f b = Numeric.greatest (f a) (as.map f)) ∧
      ∀ b ∈ a :: as, f b ≤ Numeric.greatest (f a) (as.map f) := by
  have hnumbers : ∀ y ∈ (a :: as).map f, y ≤ y := List.forall_mem_map.2 h
  obtain ⟨hmem, hle⟩ := greatest_spec hnumbers
  exact ⟨List.mem_map.1 hmem, fun b hb => hle (f b) (List.mem_map_of_mem hb)⟩

end

/-- Stretches of the unit interval lie in the one from the least beginning to the greatest end. -/
theorem unit_stretch {α : Type} {low high : α → Float} {a : α} {as : List α}
    (h : ∀ b ∈ a :: as, 0.0 ≤ low b ∧ low b ≤ high b ∧ high b ≤ 1.0) :
    (0.0 ≤ Numeric.least (low a) (as.map low) ∧
      Numeric.least (low a) (as.map low) ≤ Numeric.greatest (high a) (as.map high) ∧
      Numeric.greatest (high a) (as.map high) ≤ 1.0) ∧
    ∀ b ∈ a :: as, Numeric.least (low a) (as.map low) ≤ low b ∧
      high b ≤ Numeric.greatest (high a) (as.map high) := by
  have ha : a ∈ a :: as := List.mem_cons_self
  obtain ⟨⟨b, hb, hfirst⟩, hlow⟩ :=
    least_map_spec fun b hb => number_of_le (h b hb).2.1
  obtain ⟨⟨c, hc, hlast⟩, hhigh⟩ :=
    greatest_map_spec fun b hb => number_of_ge (h b hb).2.1
  refine ⟨⟨?_, ?_, ?_⟩, fun b hb => ⟨hlow b hb, hhigh b hb⟩⟩
  · rw [← hfirst]
    exact (h b hb).1
  · exact Double.le_trans (hlow a ha) (Double.le_trans (h a ha).2.1 (hhigh a ha))
  · rw [← hlast]
    exact (h c hc).2.2

end PageExtract.Double
