/-
Where anchors are found.

An anchor is found at a block of the document, or at one that a chain of its blocks makes up. In the
second case it has an id of its own, which is made from that of the first block of the chain.

* `Layout.Origin` — the blocks that an anchor can be found at;
* `Anchor.origin_find?` — the block of one anchor;
* `origin_findAnchors` — the blocks of all anchors.
-/
import PageExtract.Proofs.Execution.Anchors

namespace PageExtract

/-- The blocks that an anchor can be found at: those of a document, and those that chains of its
blocks make up. -/
inductive Layout.Origin (l : Layout Float) : Block Float → Prop
  | block {b : Block Float} (hb : b ∈ l.blocks) : l.Origin b
  | joined {b : Block Float} (hb : b ∈ l.blocks) (more : List (Block Float)) :
      l.Origin (joinChain b more)

variable {l : Layout Float} {s : Settings Float}

/-- A hint only leaves blocks out. -/
theorem LocationHint.mem_of_mem_choose {hint : LocationHint} {bs : List (Block Float)}
    {b : Block Float} (hb : b ∈ hint.choose bs) : b ∈ bs := by
  have horder : ∀ c, c ∈ readingOrder bs → c ∈ bs := fun c =>
    (sortBy_perm readingBefore bs).mem_iff.1
  cases hint with
  | firstOccurrence => exact horder b (List.mem_of_mem_take hb)
  | secondOccurrence => exact horder b (List.mem_of_mem_drop (List.mem_of_mem_take hb))
  | lastOccurrence => exact horder b (List.mem_of_getLast? (Option.mem_toList.1 hb))
  | topThird | topHalf | bottomHalf | leftHalf | rightHalf => exact (List.mem_filter.1 hb).1

theorem Anchor.mem_of_mem_choose {a : Anchor} {bs : List (Block Float)} {b : Block Float}
    (hb : b ∈ a.choose bs) : b ∈ bs := by
  unfold choose at hb
  split at hb
  · exact LocationHint.mem_of_mem_choose hb
  · exact hb

theorem Anchor.mem_of_mem_directMatches {a : Anchor} {pattern : String} {b : Block Float}
    (hb : b ∈ (a.directMatches l pattern).value) : b ∈ l.blocks := by
  unfold directMatches at hb
  cases hkind : a.patternKind with
  | exact | contains =>
    rw [hkind] at hb
    exact (List.mem_filter.1 hb).1
  | regex =>
    rw [hkind] at hb
    simp only at hb
    split at hb
    · exact (List.mem_filter.1 hb).1
    · cases hb

/-- A chain makes up a block that is joined from its first one. -/
theorem origin_proximityMatches {pattern : String} {threshold : Float} {b : Block Float}
    (hb : b ∈ proximityMatches l pattern threshold) : l.Origin b := by
  unfold proximityMatches at hb
  split at hb
  · obtain ⟨first, hfirst, hjoined⟩ := List.mem_filterMap.1 hb
    obtain ⟨more, -, rfl⟩ := Option.map_eq_some_iff.1 hjoined
    exact .joined (List.mem_filter.1 hfirst).1 more
  · cases hb

theorem Anchor.origin_candidates {a : Anchor} {pattern : String} {b : Block Float}
    (hb : b ∈ (a.candidates l s pattern).value) : l.Origin b := by
  unfold candidates at hb
  rw [Trace.value_bind] at hb
  split at hb
  · cases hspread : proximityMatches l pattern s.proximityThreshold with
    | nil =>
      simp only [hspread] at hb
      cases hb
    | cons c cs =>
      simp only [hspread] at hb
      exact origin_proximityMatches (hspread ▸ hb)
  · exact .block (mem_of_mem_directMatches hb)

/-- The block of an anchor is one of the document or joined from such blocks. -/
theorem Anchor.origin_find? {a : Anchor} {b : Block Float}
    (hb : (a.find? l s).value = some b) : l.Origin b := by
  unfold find? at hb
  generalize a.patterns = patterns at hb
  induction patterns with
  | nil => cases hb
  | cons pattern patterns ih =>
    rw [findBy?, Trace.value_bind] at hb
    cases hchosen : a.choose (a.candidates l s pattern).value with
    | nil =>
      rw [hchosen] at hb
      exact ih hb
    | cons c cs =>
      rw [hchosen] at hb
      cases hb
      have hb : b ∈ a.choose (a.candidates l s pattern).value := hchosen ▸ List.mem_cons_self
      exact origin_candidates (mem_of_mem_choose hb)

theorem origin_searchAnchors {search : AnchorSearch}
    (hsearch : ∀ name b, Members.get? search.found name = some b → l.Origin b)
    (anchors : List Anchor) {name : String} {b : Block Float}
    (hb : Members.get? (searchAnchors l s search anchors).value.found name = some b) :
    l.Origin b := by
  induction anchors generalizing search with
  | nil => exact hsearch name b hb
  | cons a anchors ih =>
    rw [searchAnchors_cons] at hb
    refine ih (fun name c hc => ?_) hb
    rw [AnchorSearch.get?_add] at hc
    split at hc
    · obtain hfind | ⟨-, hold⟩ := Option.or_eq_some_iff.1 hc
      · exact Anchor.origin_find? hfind
      · exact hsearch name c hold
    · exact hsearch name c hc

/-- All anchors are found at blocks of the document or at ones joined from such blocks. -/
theorem origin_findAnchors {anchors : List Anchor} {found : FoundAnchors Float}
    (hfound : (findAnchors l s anchors).value = .ok found) {name : String} {b : Block Float}
    (hb : Members.get? found name = some b) : l.Origin b := by
  have hnone := firstMissing_of_findAnchors l s hfound
  rw [value_findAnchors, hnone] at hfound
  obtain rfl := Except.ok.inj hfound
  refine origin_searchAnchors (fun name b hempty => ?_) anchors hb
  cases hempty

end PageExtract
