/-
Plain values as they occur in data.

Not every value of the type of plain values is one that data can have: the halves of a pair that
stand side by side in a text are joined, a name occurs once in a map, and the names that are array
indexes come first, in ascending order.

* `Members.Before`, `Members.Ordered` — the order of the members of a map;
* `merge_of_ordered` — setting ordered members in turn gives them again;
* `Ordered.set` — members that are set one by one are ordered;
* `Value.Proper`, `Value.IsData`, `Value.IsPlain` — the values that data can have;
* `Value.Proper.get`, `Value.Proper.set`, `Value.Proper.erase` — their members.
-/
import Mathlib.Data.List.Induction
import PageExtract.Text.Units
import PageExtract.Proofs.Number.ReadBack
import PageExtract.Value.Basic

namespace PageExtract

/-! ### Array indexes -/

/-- A name that spells an array index is spelled by that index. -/
theorem toList_of_indexOf {name : String} {i : Nat} (h : indexOf? name = some i) :
    name.toList = Shortest.natDigits i := by
  unfold indexOf? at h
  simp only at h
  split at h
  · cases h
  · rename_i hform
    split at h
    · cases h
      simp only [Bool.or_eq_true, not_or, Bool.not_eq_true', Bool.and_eq_true, not_and,
        decide_eq_true_eq, Bool.not_eq_false] at hform
      obtain ⟨⟨⟨hne, hdigits⟩, hlead⟩, -⟩ := hform
      cases hname : name.toList with
      | nil => simp [hname] at hne
      | cons d cs =>
        rw [hname] at hdigits hlead
        refine (Numeral.natDigits_natOfDigits (List.all_eq_true.1 hdigits) ?_).symm
        by_cases hcs : cs = []
        · exact .inl hcs
        · have hlength : (d :: cs).length > 1 := by
            have := List.length_pos_iff.2 hcs
            simp
            omega
          exact .inr (by simpa using hlead hlength)
    · cases h

theorem indexOf_inj {a b : String} {i : Nat} (ha : indexOf? a = some i)
    (hb : indexOf? b = some i) : a = b :=
  String.toList_inj.1 ((toList_of_indexOf ha).trans (toList_of_indexOf hb).symm)

/-! ### The order of members -/

namespace Members

variable {α β : Type}

/-- A name that may stand before another one: it is another, and if that is an array index then it
is a smaller one. -/
def Before (a b : String) : Prop :=
  a ≠ b ∧ ∀ j, indexOf? b = some j → ∃ i, indexOf? a = some i ∧ i < j

/-- Every name stands before the names that follow. -/
def Ordered (ms : Members α) : Prop := (names ms).Pairwise Before

theorem Before.trans {a b c : String} (hab : Before a b) (hbc : ∀ j, indexOf? c = some j →
    ∃ i, indexOf? b = some i ∧ i < j) (hac : a ≠ c) : Before a c := by
  refine ⟨hac, fun k hk => ?_⟩
  obtain ⟨j, hj, hjk⟩ := hbc k hk
  obtain ⟨i, hi, hij⟩ := hab.2 j hj
  exact ⟨i, hi, hij.trans hjk⟩

theorem has_eq_false_iff (ms : Members α) (name : String) :
    has ms name = false ↔ name ∉ names ms := by
  induction ms with
  | nil => simp [has, get?, names]
  | cons m ms ih =>
    obtain ⟨k, v⟩ := m
    by_cases hk : k = name
    · simp [has, get?, names, hk]
    · have hname : name ≠ k := fun h => hk h.symm
      simpa [has, get?, names, hk, hname] using ih

theorem mem_of_get {ms : Members α} {name : String} {v : α} (h : get? ms name = some v) :
    (name, v) ∈ ms := by
  induction ms with
  | nil => cases h
  | cons m ms ih =>
    obtain ⟨k, w⟩ := m
    unfold get? at h
    split at h
    · rename_i hk
      cases h
      exact hk ▸ List.mem_cons_self
    · exact List.mem_cons_of_mem _ (ih h)

theorem erase_of_absent {ms : Members α} {name : String} (hname : get? ms name = none) :
    erase ms name = ms := by
  have habsent : name ∉ names ms := (has_eq_false_iff ms name).1 (by rw [has, hname]; rfl)
  refine List.filter_eq_self.2 fun m hm => ?_
  have hne : m.1 ≠ name := fun h => habsent (h ▸ List.mem_map_of_mem hm)
  simpa using hne

/-- Replacing a value by itself changes nothing. -/
theorem replace_get {ms : Members α} {name : String} {v : α} (hv : get? ms name = some v) :
    replace name v ms = ms := by
  induction ms with
  | nil => rfl
  | cons m ms ih =>
    obtain ⟨k, w⟩ := m
    unfold get? at hv
    unfold replace
    split at hv
    · rename_i hk
      cases hv
      rw [if_pos hk]
    · rename_i hk
      rw [if_neg hk, ih hv]

@[simp] theorem names_replace (name : String) (v : α) (ms : Members α) :
    names (replace name v ms) = names ms := by
  induction ms with
  | nil => rfl
  | cons m ms ih =>
    obtain ⟨k, w⟩ := m
    unfold replace
    split
    · rfl
    · exact congrArg (k :: ·) ih

/-- An index that is greater than all others is added at the end. -/
theorem insertIndex_of_before {i : Nat} {name : String} (v : α) {ms : Members α}
    (hi : indexOf? name = some i) (hms : ∀ k ∈ names ms, Before k name) :
    insertIndex i name v ms = ms ++ [(name, v)] := by
  induction ms with
  | nil => rfl
  | cons m ms ih =>
    obtain ⟨k, w⟩ := m
    obtain ⟨j, hj, hji⟩ := (hms k List.mem_cons_self).2 i hi
    have hrest := ih fun k' hk' => hms k' (List.mem_cons_of_mem k hk')
    simp [insertIndex, hj, hji, hrest]

/-- A name that all others stand before is added at the end. -/
theorem set_of_before {name : String} (v : α) {ms : Members α}
    (hms : ∀ k ∈ names ms, Before k name) : set ms name v = ms ++ [(name, v)] := by
  have habsent : has ms name = false :=
    (has_eq_false_iff ms name).2 fun hmem => (hms name hmem).1 rfl
  unfold set
  rw [habsent, if_neg Bool.false_ne_true]
  split
  · exact insertIndex_of_before v ‹_› hms
  · rfl

/-- Setting ordered members in turn gives them again. -/
theorem merge_of_ordered {acc ms : Members α} (h : Ordered (acc ++ ms)) :
    merge acc ms = acc ++ ms := by
  induction ms generalizing acc with
  | nil => simp [merge]
  | cons m ms ih =>
    obtain ⟨k, v⟩ := m
    have hbefore : ∀ k' ∈ names acc, Before k' k := by
      unfold Ordered names at h
      rw [List.map_append, List.map_cons] at h
      exact fun k' hk' => (List.pairwise_append.1 h).2.2 k' hk' k List.mem_cons_self
    have hstep : merge acc ((k, v) :: ms) = merge (set acc k v) ms := rfl
    rw [hstep, set_of_before v hbefore, ih (by simpa using h)]
    simp

/-- A name that is no array index is put where it is set. -/
theorem put_eq_set (ms : Members α) {name : String} (hname : indexOf? name = none) (v : α) :
    put ms name v = set ms name v := by
  unfold put set
  rw [hname]

theorem mem_insertIndex {i : Nat} {name : String} {v : α} {ms : Members α} {m : String × α}
    (hm : m ∈ insertIndex i name v ms) : m = (name, v) ∨ m ∈ ms := by
  induction ms with
  | nil => exact .inl (List.mem_singleton.1 hm)
  | cons m' ms ih =>
    obtain ⟨k, w⟩ := m'
    unfold insertIndex at hm
    split at hm
    · split at hm
      · obtain rfl | hm := List.mem_cons.1 hm
        · exact .inr List.mem_cons_self
        · exact (ih hm).imp id (List.mem_cons_of_mem _)
      · exact List.mem_cons.1 hm
    · exact List.mem_cons.1 hm

theorem mem_replace {name : String} {v : α} {ms : Members α} {m : String × α}
    (hm : m ∈ replace name v ms) : m = (name, v) ∨ m ∈ ms := by
  induction ms with
  | nil => cases hm
  | cons m' ms ih =>
    obtain ⟨k, w⟩ := m'
    unfold replace at hm
    split at hm
    · rename_i hk
      subst hk
      exact (List.mem_cons.1 hm).imp id (List.mem_cons_of_mem _)
    · obtain rfl | hm := List.mem_cons.1 hm
      · exact .inr List.mem_cons_self
      · exact (ih hm).imp id (List.mem_cons_of_mem _)

/-- What is set is the only member that was not there before. -/
theorem mem_set {name : String} {v : α} {ms : Members α} {m : String × α}
    (hm : m ∈ set ms name v) : m = (name, v) ∨ m ∈ ms := by
  unfold set at hm
  split at hm
  · exact mem_replace hm
  · split at hm
    · exact mem_insertIndex hm
    · exact (List.mem_append.1 hm).symm.imp List.mem_singleton.1 id

theorem Ordered.insertIndex {i : Nat} {name : String} (v : α) {ms : Members α}
    (hi : indexOf? name = some i) (hms : Ordered ms) (habsent : name ∉ names ms) :
    Ordered (insertIndex i name v ms) := by
  induction ms with
  | nil => exact List.pairwise_singleton _ _
  | cons m ms ih =>
    obtain ⟨k, w⟩ := m
    obtain ⟨hk, hrest⟩ := List.pairwise_cons.1 hms
    have hne : name ≠ k := fun h => habsent (h ▸ List.mem_cons_self)
    have habsent' : name ∉ names ms := fun h => habsent (List.mem_cons_of_mem k h)
    -- A name before the first member is before all others too.
    have hfront : Before name k → Ordered ((name, v) :: (k, w) :: ms) := by
      intro hbefore
      refine List.pairwise_cons.2 ⟨fun k' hk' => ?_, hms⟩
      obtain rfl | hk' := List.mem_cons.1 hk'
      · exact hbefore
      · exact hbefore.trans (hk k' hk').2 fun h => habsent' (h ▸ hk')
    unfold Members.insertIndex
    split
    · rename_i j hj
      split
      · rename_i hji
        refine List.pairwise_cons.2 ⟨fun k' hk' => ?_, ih hrest habsent'⟩
        obtain ⟨m, hm, rfl⟩ := List.mem_map.1 hk'
        obtain rfl | hm := mem_insertIndex hm
        · exact ⟨hne.symm, fun i' hi' => ⟨j, hj, by rw [hi] at hi'; cases hi'; exact hji⟩⟩
        · exact hk m.1 (List.mem_map_of_mem hm)
      · rename_i hij
        refine hfront ⟨hne, fun j' hj' => ⟨i, hi, ?_⟩⟩
        rw [hj] at hj'
        cases hj'
        have hdiffer : i ≠ j := fun h => hne (indexOf_inj (h ▸ hi) hj)
        omega
    · rename_i hnone
      exact hfront ⟨hne, fun j hj => by rw [hnone] at hj; cases hj⟩

/-- Members that are set one by one are ordered. -/
theorem Ordered.set {ms : Members α} (hms : Ordered ms) (name : String) (v : α) :
    Ordered (set ms name v) := by
  unfold Members.set
  split
  · unfold Ordered
    rwa [names_replace]
  · rename_i hhas
    have habsent := (has_eq_false_iff ms name).1 (Bool.not_eq_true _ ▸ hhas)
    split
    · exact hms.insertIndex v ‹_› habsent
    · rename_i hnone
      unfold Ordered names at hms ⊢
      rw [List.map_append]
      refine List.pairwise_append.2 ⟨hms, List.pairwise_singleton _ _, fun k hk k' hk' => ?_⟩
      obtain rfl := List.mem_singleton.1 hk'
      exact ⟨fun h => habsent (h ▸ hk), fun j hj => by rw [hnone] at hj; cases hj⟩

end Members

/-! ### Values -/

/-- A value that data can have, with numbers of some kind: its texts are joined, and its members are
ordered. -/
inductive Value.Proper {ν : Type} (good : ν → Prop) : Value ν → Prop
  | null : Proper good .null
  | bool (b : Bool) : Proper good (.bool b)
  | num {n : ν} (hn : good n) : Proper good (.num n)
  | str {s : String} (hs : Text.joined s = s) : Proper good (.str s)
  | list {vs : List (Value ν)} (hvs : ∀ v ∈ vs, Proper good v) : Proper good (.list vs)
  | map {ms : Members (Value ν)} (hordered : Members.Ordered ms)
      (hnames : ∀ m ∈ ms, Text.joined m.1 = m.1) (hvalues : ∀ m ∈ ms, Proper good m.2) :
      Proper good (.map ms)

/-- A value that data can have, with any numbers. -/
abbrev Value.IsData {ν : Type} (v : Value ν) : Prop := v.Proper fun _ => True

/-- A value that data can have, with plain numbers only. -/
abbrev Value.IsPlain (v : Value Float) : Prop := v.Proper Double.Plain

namespace Value.Proper

variable {ν : Type} {good : ν → Prop} {ms : Members (Value ν)}

theorem get (hms : (Value.map ms).Proper good) {name : String} {v : Value ν}
    (hv : Members.get? ms name = some v) : v.Proper good := by
  cases hms with
  | map _ _ hvalues => exact hvalues (name, v) (Members.mem_of_get hv)

/-- A member with a joined name is set in a map that data can have. -/
theorem set (hms : (Value.map ms).Proper good) {name : String} (hname : Text.joined name = name)
    {v : Value ν} (hv : v.Proper good) : (Value.map (Members.set ms name v)).Proper good := by
  cases hms with
  | map hordered hnames hvalues =>
    refine .map (hordered.set name v) (fun m hm => ?_) (fun m hm => ?_)
    · obtain rfl | hm := Members.mem_set hm
      · exact hname
      · exact hnames m hm
    · obtain rfl | hm := Members.mem_set hm
      · exact hv
      · exact hvalues m hm

theorem erase (hms : (Value.map ms).Proper good) (name : String) :
    (Value.map (Members.erase ms name)).Proper good := by
  cases hms with
  | map hordered hnames hvalues =>
    refine .map ?_ (fun m hm => hnames m (List.mem_filter.1 hm).1)
      fun m hm => hvalues m (List.mem_filter.1 hm).1
    exact List.Pairwise.sublist (List.filter_sublist.map _) hordered

end Value.Proper

end PageExtract
