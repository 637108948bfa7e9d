/-
What readers accept.

A reader accepts a value if it finds nothing wrong with it. Which values these are, and what they
read as, is said reader by reader:

* `Checked.seq_eq_pure_iff`, … — which checks find nothing wrong, part by part;
* `text_eq_pure_iff`, … — readers of single values;
* `list_eq_pure_iff`, `object_eq_pure_iff`, `member_eq_pure_iff` — readers of values with parts;
* `optional_eq_pure_iff`, … — readers of values that may be missing.
-/
import Mathlib.Data.List.Forall2
import PageExtract.Schema.Reader

namespace PageExtract

/-! ### Checks that find nothing wrong -/

namespace Checked

variable {α β : Type}

theorem eq_pure_iff {c : Checked α} {a : α} : c = pure a ↔ c.value? = some a ∧ c.issues = [] := by
  obtain ⟨v, is⟩ := c
  exact Checked.mk.injEq v is (some a) [] ▸ Iff.rfl

theorem seq_eq_pure_iff {f : Checked (α → β)} {x : Checked α} {b : β} :
    f <*> x = pure b ↔ ∃ g, f = pure g ∧ ∃ a, x = pure a ∧ g a = b := by
  obtain ⟨g, is⟩ := f
  obtain ⟨a, js⟩ := x
  cases g <;> cases a <;> simp [eq_pure_iff, Seq.seq, and_left_comm, and_comm, and_assoc]

theorem map_eq_pure_iff {f : α → β} {x : Checked α} {b : β} :
    f <$> x = pure b ↔ ∃ a, x = pure a ∧ f a = b := by
  simp only [eq_pure_iff, value_map, issues_map, Option.map_eq_some_iff]
  constructor
  · rintro ⟨⟨a, ha, hb⟩, his⟩
    exact ⟨a, ⟨ha, his⟩, hb⟩
  · rintro ⟨a, ⟨ha, his⟩, hb⟩
    exact ⟨⟨a, ha, hb⟩, his⟩

theorem below_eq_pure_iff {step : String} {c : Checked α} {a : α} :
    c.below step = pure a ↔ c = pure a := by
  rw [eq_pure_iff, eq_pure_iff, issues_below]
  rfl

theorem settled_eq_pure_iff {c : Checked α} {a : α} : c.settled = pure a ↔ c = pure a := by
  unfold settled
  split
  · rfl
  · rename_i hissues
    have hne : c.issues ≠ [] := fun h => hissues (List.isEmpty_iff.2 h)
    simp [eq_pure_iff, hne]

theorem flagIf_eq_pure_iff {test : α → Bool} {fault : Fault} {c : Checked α} {a : α} :
    c.flagIf test fault = pure a ↔ c = pure a ∧ test a = false := by
  unfold flagIf
  split
  · rename_i b hb
    split
    · rename_i htest
      constructor
      · intro h
        have hissues := (eq_pure_iff.1 h).2
        simp at hissues
      · rintro ⟨rfl, ha⟩
        cases hb
        rw [htest] at ha
        cases ha
    · rename_i htest
      refine ⟨fun h => ⟨h, ?_⟩, And.left⟩
      subst h
      cases hb
      simpa using htest
  · rename_i hnone
    refine ⟨fun h => ?_, And.left⟩
    subst h
    cases hnone

theorem flagAll_eq_pure_iff {more : α → List Issue} {c : Checked α} {a : α} :
    c.flagAll more = pure a ↔ c = pure a ∧ more a = [] := by
  obtain ⟨value?, issues⟩ := c
  cases value? with
  | none => simp [flagAll, eq_pure_iff]
  | some b =>
    simp only [flagAll, eq_pure_iff, List.append_eq_nil_iff, Option.some_inj]
    constructor
    · rintro ⟨rfl, hissues, hmore⟩
      exact ⟨⟨rfl, hissues⟩, hmore⟩
    · rintro ⟨⟨rfl, hissues⟩, hmore⟩
      exact ⟨rfl, hissues, hmore⟩

theorem toExcept_eq_ok_iff_pure {c : Checked α} {a : α} : c.toExcept = .ok a ↔ c = pure a :=
  toExcept_eq_ok_iff.trans eq_pure_iff.symm

end Checked

/-! ### Single values -/

namespace Reader

open Checked

variable {ν α β : Type} {r : Reader ν α} {v : Option (Value ν)}

theorem refuse_ne_pure {expected : ValueKind} {a : α} : refuse expected v ≠ pure a := by
  intro h
  exact absurd (eq_pure_iff.1 h).1 (Option.some_ne_none a).symm

theorem bad_ne_pure {fault : Fault} {a : α} : bad fault ≠ pure a := by
  intro h
  exact absurd (eq_pure_iff.1 h).1 (Option.some_ne_none a).symm

theorem pure_inj {a b : α} : (pure a : Checked α) = pure b ↔ a = b := by
  simp [eq_pure_iff]

theorem text_eq_pure_iff {s : String} : text v = pure s ↔ v = some (.str s) := by
  constructor
  · intro h
    unfold text at h
    split at h
    · rw [pure_inj.1 h]
    · exact absurd h refuse_ne_pure
  · rintro rfl
    rfl

theorem name_eq_pure_iff {s : String} : name v = pure s ↔ v = some (.str s) ∧ s ≠ "" := by
  unfold name
  rw [flagIf_eq_pure_iff, text_eq_pure_iff, ← Bool.not_eq_true, String.isEmpty_iff]

theorem flag_eq_pure_iff {b : Bool} : flag v = pure b ↔ v = some (.bool b) := by
  constructor
  · intro h
    unfold flag at h
    split at h
    · rw [pure_inj.1 h]
    · exact absurd h refuse_ne_pure
  · rintro rfl
    rfl

theorem number_eq_pure_iff {x : ν} : number v = pure x ↔ v = some (.num x) := by
  constructor
  · intro h
    unfold number at h
    split at h
    · rw [pure_inj.1 h]
    · exact absurd h refuse_ne_pure
  · rintro rfl
    rfl

/-! ### Values with parts -/

theorem items_eq_pure_iff {position : Nat} {vs : List (Value ν)} {as : List α} :
    items r position vs = pure as ↔ List.Forall₂ (fun v a => r (some v) = pure a) vs as := by
  -- The positions only say where issues are, and there are none.
  induction vs generalizing position as with
  | nil =>
    rw [items, pure_inj, List.forall₂_nil_left_iff]
    exact eq_comm
  | cons v vs ih =>
    rw [items, seq_eq_pure_iff, List.forall₂_cons_left_iff]
    simp only [map_eq_pure_iff, below_eq_pure_iff, ih]
    constructor
    · rintro ⟨g, ⟨a, ha, rfl⟩, as', has, rfl⟩
      exact ⟨a, as', ha, has, rfl⟩
    · rintro ⟨a, as', ha, has, rfl⟩
      exact ⟨List.cons a, ⟨a, ha, rfl⟩, as', has, rfl⟩

theorem listOf_eq_pure_iff {least : Nat} {as : List α} : listOf least r v = pure as ↔
    ∃ vs, v = some (.list vs) ∧ least ≤ vs.length ∧
      List.Forall₂ (fun v a => r (some v) = pure a) vs as := by
  constructor
  · intro h
    unfold listOf at h
    split at h
    · rename_i vs
      simp only at h
      split at h
      · exact absurd (eq_pure_iff.1 h).2 (List.cons_ne_nil _ _)
      · rename_i hlength
        exact ⟨vs, rfl, Nat.le_of_not_lt hlength, items_eq_pure_iff.1 h⟩
    · exact absurd h refuse_ne_pure
  · rintro ⟨vs, rfl, hlength, h⟩
    unfold listOf
    simp only [if_neg (Nat.not_lt.2 hlength)]
    exact items_eq_pure_iff.2 h

theorem list_eq_pure_iff {as : List α} : list r v = pure as ↔
    ∃ vs, v = some (.list vs) ∧ List.Forall₂ (fun v a => r (some v) = pure a) vs as := by
  unfold list
  simp only [listOf_eq_pure_iff, Nat.zero_le, true_and]

/-- A list is accepted if each of its items is. -/
theorem read_list {out : α → Value ν} {as : List α} (h : ∀ a ∈ as, r (some (out a)) = pure a) :
    list r (some (.list (as.map out))) = pure as :=
  list_eq_pure_iff.2 ⟨_, rfl, List.forall₂_map_left_iff.2 (List.forall₂_same.2 h)⟩

/-- Each element that was read is read from one of the items. -/
theorem exists_of_mem_right {R : Value ν → α → Prop} {vs : List (Value ν)} {as : List α}
    (h : List.Forall₂ R vs as) {a : α} (ha : a ∈ as) : ∃ v ∈ vs, R v a := by
  induction h with
  | nil => cases ha
  | cons hfirst _ ih =>
    obtain rfl | ha := List.mem_cons.1 ha
    · exact ⟨_, List.mem_cons_self, hfirst⟩
    · obtain ⟨v, hv, hread⟩ := ih ha
      exact ⟨v, List.mem_cons_of_mem _ hv, hread⟩

theorem pair_eq_pure_iff {a b : α} : pair r v = pure (a, b) ↔
    ∃ w w', v = some (.list [w, w']) ∧ r (some w) = pure a ∧ r (some w') = pure b := by
  have hparts : ∀ {w w' : Value ν},
      Prod.mk <$> (r (some w)).below "0" <*> (r (some w')).below "1" = pure (a, b) ↔
        r (some w) = pure a ∧ r (some w') = pure b := by
    intro w w'
    simp only [seq_eq_pure_iff, map_eq_pure_iff, below_eq_pure_iff]
    constructor
    · rintro ⟨g, ⟨a', ha, rfl⟩, b', hb, hab⟩
      cases hab
      exact ⟨ha, hb⟩
    · rintro ⟨ha, hb⟩
      exact ⟨_, ⟨a, ha, rfl⟩, b, hb, rfl⟩
  constructor
  · intro h
    unfold pair at h
    split at h
    · rename_i w w' more
      simp only at h
      split at h
      · rename_i hmore
        rw [List.isEmpty_iff.1 hmore]
        exact ⟨w, w', rfl, hparts.1 h⟩
      · exact absurd (eq_pure_iff.1 h).2 (List.cons_ne_nil _ _)
    · exact absurd h bad_ne_pure
    · exact absurd h refuse_ne_pure
  · rintro ⟨w, w', rfl, h⟩
    exact hparts.2 h

theorem object_eq_pure_iff {read : Members (Value ν) → Checked α} {a : α} :
    object read v = pure a ↔ ∃ ms, v = some (.map ms) ∧ read ms = pure a := by
  constructor
  · intro h
    unfold object at h
    split at h
    · exact ⟨_, rfl, h⟩
    · exact absurd h refuse_ne_pure
  · rintro ⟨ms, rfl, h⟩
    exact h

theorem member_eq_pure_iff {key : String} {ms : Members (Value ν)} {a : α} :
    member key r ms = pure a ↔ r (Members.get? ms key) = pure a := below_eq_pure_iff

/-- The first field of a record. -/
theorem first_eq_pure_iff {key : String} {ms : Members (Value ν)} {f : α → β} {b : β} :
    f <$> member key r ms = pure b ↔ ∃ a, r (Members.get? ms key) = pure a ∧ f a = b := by
  simp only [map_eq_pure_iff, member_eq_pure_iff]

/-- One more field of a record. -/
theorem next_eq_pure_iff {key : String} {ms : Members (Value ν)} {f : Checked (α → β)} {b : β} :
    f <*> member key r ms = pure b ↔
      ∃ g, f = pure g ∧ ∃ a, r (Members.get? ms key) = pure a ∧ g a = b := by
  simp only [seq_eq_pure_iff, member_eq_pure_iff]

/-! ### Values that may be missing -/

theorem optional_eq_pure_iff {a? : Option α} : optional r v = pure a? ↔
    (v = none ∧ a? = none) ∨ ∃ w a, v = some w ∧ r (some w) = pure a ∧ a? = some a := by
  cases v with
  | none => simp [optional, pure_inj, eq_comm]
  | some w => simp [optional, map_eq_pure_iff, eq_comm]

/-- Nothing that is there reads as missing, except null. -/
theorem nullable_eq_pure_iff {a? : Option α} : nullable r v = pure a? ↔
    ((v = none ∨ v = some .null) ∧ a? = none) ∨
      ∃ w a, v = some w ∧ w ≠ .null ∧ r (some w) = pure a ∧ a? = some a := by
  unfold nullable
  split
  · simp [pure_inj, eq_comm]
  · simp [pure_inj, eq_comm]
  · rename_i hnone hnull
    cases v with
    | none => exact absurd rfl hnone
    | some w =>
      have hw : w ≠ .null := fun h => hnull (congrArg some h)
      simp only [map_eq_pure_iff, settled_eq_pure_iff]
      simp [hw, eq_comm]

theorem orElse_eq_pure_iff {missing a : α} : orElse missing r v = pure a ↔
    (v = none ∧ a = missing) ∨ ∃ w, v = some w ∧ r (some w) = pure a := by
  cases v with
  | none => simp [orElse, pure_inj, eq_comm]
  | some w => simp [orElse]

end Reader

end PageExtract
