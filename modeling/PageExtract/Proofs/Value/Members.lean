/-
The names of members, and what is left when members are put and erased.

* `has_iff`, `get?_of_not_mem`, `get?_of_mem` — whether there is a member of a name;
* `has_map`, `get?_map`, `put_map` — the same members with their values changed;
* `names_put`, `names_erase` — the names afterwards, in order;
* `put_get`, `mem_put`, `get?_merge_concat`, `get?_erase_of_ne` — the members afterwards.
-/
import PageExtract.Proofs.Value.Proper

namespace PageExtract.Members

variable {α : Type} {ms : Members α} {name key : String} {v : α}

/-! ### Names -/

theorem has_iff (ms : Members α) (name : String) : has ms name = true ↔ name ∈ names ms := by
  have h := has_eq_false_iff ms name
  cases hhas : has ms name with
  | true => simpa [hhas] using h
  | false => simpa [hhas] using h

theorem get?_of_not_mem (h : name ∉ names ms) : get? ms name = none := by
  have hhas := (has_eq_false_iff ms name).2 h
  simpa [has] using hhas

/-- If the names are distinct, each member is the one of its name. -/
theorem get?_of_mem (hms : (names ms).Nodup) (h : (name, v) ∈ ms) : get? ms name = some v := by
  induction ms with
  | nil => cases h
  | cons m ms ih =>
    obtain ⟨k, w⟩ := m
    obtain ⟨hk, hnodup⟩ := List.nodup_cons.1 hms
    obtain hfirst | h := List.mem_cons.1 h
    · cases hfirst
      exact if_pos rfl
    · have hne : k ≠ name := by
        rintro rfl
        exact hk (List.mem_map.2 ⟨(k, v), h, rfl⟩)
      rw [get?, if_neg hne]
      exact ih hnodup h

/-- Changing the members' values keeps the names. -/
theorem names_map {β : Type} (f : α → β) (ms : Members α) :
    names (ms.map fun m => (m.1, f m.2)) = names ms := by
  rw [names, names, List.map_map]
  rfl

theorem has_map {β : Type} (f : α → β) (ms : Members α) (name : String) :
    has (ms.map fun m => (m.1, f m.2)) name = has ms name := by
  rw [Bool.eq_iff_iff, has_iff, has_iff, names_map]

theorem get?_map {β : Type} (f : α → β) (ms : Members α) (name : String) :
    get? (ms.map fun m => (m.1, f m.2)) name = (get? ms name).map f := by
  induction ms with
  | nil => rfl
  | cons m ms ih =>
    by_cases hname : m.1 = name
    · simp [get?, hname]
    · simpa [get?, hname] using ih

theorem replace_map {β : Type} (f : α → β) (ms : Members α) (name : String) (v : α) :
    replace name (f v) (ms.map fun m => (m.1, f m.2)) =
      (replace name v ms).map fun m => (m.1, f m.2) := by
  induction ms with
  | nil => rfl
  | cons m ms ih =>
    by_cases hname : m.1 = name
    · simp [replace, hname]
    · simpa [replace, hname] using ih

/-- A member that is put keeps its place when the values are changed. -/
theorem put_map {β : Type} (f : α → β) (ms : Members α) (name : String) (v : α) :
    put (ms.map fun m => (m.1, f m.2)) name (f v) =
      (put ms name v).map fun m => (m.1, f m.2) := by
  rw [put, put, has_map]
  by_cases hhas : has ms name = true
  · rw [if_pos hhas, if_pos hhas, replace_map]
  · rw [if_neg hhas, if_neg hhas, List.map_append]
    rfl

theorem names_erase (ms : Members α) (name : String) :
    names (erase ms name) = (names ms).filter (· != name) := by
  rw [names, names, erase, List.filter_map]
  rfl

/-- A name that is put for the first time comes last; one that is there stays where it is. -/
theorem names_put (ms : Members α) (name : String) (v : α) :
    names (put ms name v) = if name ∈ names ms then names ms else names ms ++ [name] := by
  unfold put
  by_cases h : has ms name = true
  · rw [if_pos h, if_pos ((has_iff ms name).1 h), names_replace]
  · rw [if_neg h, if_neg fun hmem => h ((has_iff ms name).2 hmem)]
    simp [names]

/-! ### Members -/

/-- Putting back what is there changes nothing. -/
theorem put_get (hv : get? ms name = some v) : put ms name v = ms := by
  have hhas : has ms name = true := by simp [has, hv]
  rw [put, if_pos hhas, replace_get hv]

/-- What is put is the only member that was not there before. -/
theorem mem_put {m : String × α} (hm : m ∈ put ms name v) : m = (name, v) ∨ m ∈ ms := by
  unfold put at hm
  split at hm
  · exact mem_replace hm
  · exact (List.mem_append.1 hm).symm.imp List.mem_singleton.1 id

/-- The member that is set last has its value, whatever was set before. -/
theorem get?_merge_concat (ms extra : Members α) (name : String) (v : α) :
    get? (merge ms (extra ++ [(name, v)])) name = some v := by
  rw [merge, List.foldl_append]
  exact (get?_set _ _ _ _).trans (if_pos rfl)

theorem get?_erase_of_ne (hkey : key ≠ name) : get? (erase ms name) key = get? ms key := by
  induction ms with
  | nil => rfl
  | cons m ms ih =>
    obtain ⟨k, v⟩ := m
    unfold erase at ih ⊢
    by_cases hk : k = name
    · subst hk
      have hne : k ≠ key := fun h => hkey h.symm
      simpa [get?, hne] using ih
    · by_cases hk' : k = key
      · subst hk'
        simp [get?, hk]
      · simpa [get?, hk, hk'] using ih

end PageExtract.Members
