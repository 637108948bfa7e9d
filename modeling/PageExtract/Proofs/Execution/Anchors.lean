/-
What a search for anchors finds.

If no two anchors have one name, then what is found under the name of an anchor is the block of that
anchor, if it has one.

* `AnchorSearch.found_add_none`, `AnchorSearch.get?_add`, `get?_searchAnchors` — what is found under
  a name;
* `warnings_findAnchors` — where the warnings come from;
* `get?_findAnchors` — what a search that ends well has found.
-/
import Mathlib.Data.List.Nodup
import PageExtract.Proofs.Execution.Outcome
import PageExtract.Proofs.Value.Members

namespace PageExtract

variable {l : Layout Float} {s : Settings Float}

/-- An anchor that is not found adds nothing to what is found. -/
theorem AnchorSearch.found_add_none (search : AnchorSearch) (a : Anchor) :
    (search.add a none).found = search.found := by
  unfold add
  cases a.required <;> rfl

/-- An anchor that is found is known by its name. -/
theorem AnchorSearch.get?_add (search : AnchorSearch) (a : Anchor) (b : Option (Block Float))
    (name : String) :
    Members.get? (search.add a b).found name =
      if a.name = name then b.or (Members.get? search.found name)
      else Members.get? search.found name := by
  cases b with
  | some b => simp [add, Members.get?_put]
  | none => simp [found_add_none]

theorem searchAnchors_cons (search : AnchorSearch) (a : Anchor) (anchors : List Anchor) :
    (searchAnchors l s search (a :: anchors)).value =
      (searchAnchors l s (search.add a (a.find? l s).value) anchors).value := rfl

/-- A search leaves a name as it is that is not the name of one of its anchors. -/
theorem get?_searchAnchors_of_not_mem (search : AnchorSearch) {anchors : List Anchor}
    {name : String} (hname : name ∉ anchors.map (·.name)) :
    Members.get? (searchAnchors l s search anchors).value.found name =
      Members.get? search.found name := by
  induction anchors generalizing search with
  | nil => rfl
  | cons a anchors ih =>
    rw [List.map_cons, List.mem_cons, not_or] at hname
    rw [searchAnchors_cons, ih _ hname.2, AnchorSearch.get?_add, if_neg (Ne.symm hname.1)]

/-- A search adds the block of each of its anchors. -/
theorem get?_searchAnchors (search : AnchorSearch) {anchors : List Anchor}
    (hnames : (anchors.map (·.name)).Nodup) {a : Anchor} (ha : a ∈ anchors) :
    Members.get? (searchAnchors l s search anchors).value.found a.name =
      (a.find? l s).value.or (Members.get? search.found a.name) := by
  induction anchors generalizing search with
  | nil => cases ha
  | cons a' anchors ih =>
    obtain ⟨hfresh, hrest⟩ := List.nodup_cons.1 hnames
    rw [searchAnchors_cons]
    obtain rfl | ha := List.mem_cons.1 ha
    · rw [get?_searchAnchors_of_not_mem _ hfresh, AnchorSearch.get?_add, if_pos rfl]
    · have hne : a'.name ≠ a.name := fun hsame => hfresh (List.mem_map.2 ⟨a, ha, hsame.symm⟩)
      rw [ih _ hrest ha, AnchorSearch.get?_add, if_neg hne]

/-- All warnings about anchors come from the search. -/
theorem warnings_findAnchors (anchors : List Anchor) :
    (findAnchors l s anchors).trace.warnings =
      (searchAnchors l s ⟨[], none⟩ anchors).trace.warnings := by
  rw [findAnchors, Trace.warnings_bind, Trace.warnings_bind]
  cases (searchAnchors l s ⟨[], none⟩ anchors).value.missing with
  | some name => exact List.append_nil _
  | none => exact List.append_nil _

/-- What is found under the name of an anchor is the block of the anchor. -/
theorem get?_findAnchors {anchors : List Anchor} {found : FoundAnchors Float}
    (hfound : (findAnchors l s anchors).value = .ok found)
    (hnames : (anchors.map (·.name)).Nodup) {a : Anchor} (ha : a ∈ anchors) :
    Members.get? found a.name = (a.find? l s).value := by
  have hnone := firstMissing_of_findAnchors l s hfound
  rw [value_findAnchors, hnone] at hfound
  obtain rfl := Except.ok.inj hfound
  rw [get?_searchAnchors _ hnames ha]
  exact Option.or_none

end PageExtract
