/-
Which anchors are found.

All anchors are looked for before the search for them ends with an error. An anchor resolves if its
hint leaves some block of those that one of its patterns matches, and then it is the first block
that is left for the first such pattern. If all required anchors resolve, the search finds exactly
the anchors that resolve, and otherwise it names the first required one that does not.

* `Anchor.matchesOf`, `Anchor.chosen`, `Anchor.Resolvable`, `Anchor.ResolvesTo` — the block of an
  anchor;
* `Anchor.value_candidates`, `Anchor.value_find?_eq_some_iff` — the search for one anchor;
* `found_searchAnchors`, `missingTexts_searchAnchors` — the search for all anchors;
* `findAnchors_complete` — its outcome.
-/
import PageExtract.Proofs.Execution.Optional
import PageExtract.Proofs.Execution.Warnings
import PageExtract.Proofs.Text.Words

namespace PageExtract

/-! ### What an anchor resolves to -/

section

variable (l : Layout Float) (s : Settings Float) (a : Anchor)

/-- The blocks that a pattern of an anchor matches as it is. A pattern that is no regular expression
where one is needed matches none. -/
def Anchor.direct (pattern : String) : List (Block Float) :=
  match a.patternKind with
  | .exact => l.findTextExact pattern false
  | .contains => l.findText pattern false
  | .regex =>
    match Pattern.parse? pattern with
    | some p => l.findPattern p
    | none => []

/-- The blocks that a pattern of an anchor matches: those that it matches as it is or, if there are
none and the pattern is a text that holds a blank character, those that it is spread over. -/
def Anchor.matchesOf (pattern : String) : List (Block Float) :=
  if a.direct l pattern = [] ∧ a.patternKind ≠ .regex ∧
      pattern.toList.any Text.isBlank = true then
    proximityMatches l pattern s.proximityThreshold
  else a.direct l pattern

/-- The blocks that the hint of an anchor leaves of those that a pattern matches. -/
def Anchor.chosen (pattern : String) : List (Block Float) := a.choose (a.matchesOf l s pattern)

/-- Whether some pattern of an anchor leads to a block. -/
def Anchor.Resolvable : Prop := ∃ pattern ∈ a.patterns, a.chosen l s pattern ≠ []

instance : Decidable (a.Resolvable l s) :=
  inferInstanceAs (Decidable (∃ pattern ∈ a.patterns, a.chosen l s pattern ≠ []))

/-- Whether an anchor is a block: the first one of those that its first pattern which leads to any
leads to. -/
def Anchor.ResolvesTo (b : Block Float) : Prop :=
  ∃ before pattern after more, a.patterns = before ++ pattern :: after ∧
    (∀ p ∈ before, a.chosen l s p = []) ∧ a.chosen l s pattern = b :: more

/-! ### The search for one anchor -/

theorem Anchor.value_directMatches (pattern : String) :
    (a.directMatches l pattern).value = a.direct l pattern := by
  unfold directMatches direct
  cases a.patternKind with
  | exact => rfl
  | contains => rfl
  | regex =>
    simp only
    cases Pattern.parse? pattern with
    | some p => rfl
    | none => rfl

variable {a}

/-- A pattern with blank characters at its ends alone is not spread over blocks. -/
theorem proximityMatches_eq_nil {pattern : String}
    (h : (Text.trim pattern).toList.any Text.isBlank = false) (threshold : Float) :
    proximityMatches l pattern threshold = [] := by
  have hwords : (patternWords pattern).length ≤ 1 := Text.length_words_lower_le_one h
  unfold proximityMatches
  split
  · rename_i hmore
    rw [hmore] at hwords
    simp at hwords
  · rfl

theorem any_isBlank_of_trim {pattern : String}
    (h : (Text.trim pattern).toList.any Text.isBlank = true) :
    pattern.toList.any Text.isBlank = true := by
  obtain ⟨before, after, hsplit, -⟩ := Text.exists_eq_append_trimChars pattern.toList
  rw [Text.trim, String.toList_ofList] at h
  rw [hsplit, List.any_append, List.any_append, h]
  simp

theorem Anchor.value_candidates_eq_ite (pattern : String) :
    (a.candidates l s pattern).value =
      if ((a.direct l pattern).isEmpty && a.canSpread pattern) = true then
        proximityMatches l pattern s.proximityThreshold
      else a.direct l pattern := by
  rw [candidates, Trace.value_bind, value_directMatches]
  by_cases hspread : ((a.direct l pattern).isEmpty && a.canSpread pattern) = true
  · rw [if_pos hspread, if_pos hspread]
    cases proximityMatches l pattern s.proximityThreshold <;> rfl
  · rw [if_neg hspread, if_neg hspread]
    rfl

/-- The candidates of an anchor are the blocks that its pattern matches. -/
theorem Anchor.value_candidates (pattern : String) :
    (a.candidates l s pattern).value = a.matchesOf l s pattern := by
  rw [value_candidates_eq_ite, matchesOf]
  cases a.direct l pattern with
  | cons b bs => rfl
  | nil =>
    rw [List.isEmpty_nil, Bool.true_and]
    by_cases hregex : a.patternKind = .regex
    · have hcannot : a.canSpread pattern = false := by
        rw [canSpread, hregex]
        rfl
      rw [hcannot, if_neg Bool.false_ne_true]
      exact (if_neg fun h => h.2.1 hregex).symm
    · have hcan : a.canSpread pattern = (Text.trim pattern).toList.any Text.isBlank := by
        rw [canSpread, bne_iff_ne.2 hregex, Bool.true_and]
      rw [hcan]
      cases hblank : (Text.trim pattern).toList.any Text.isBlank with
      | true =>
        rw [if_pos rfl]
        exact (if_pos ⟨rfl, hregex, any_isBlank_of_trim hblank⟩).symm
      | false =>
        -- All blank characters of the pattern are at its ends.
        rw [if_neg Bool.false_ne_true, proximityMatches_eq_nil l hblank]
        exact (ite_self []).symm

/-- The search for an anchor by some patterns finds the first block that one of them leads to. -/
theorem Anchor.value_findBy?_eq_some_iff {patterns : List String} {b : Block Float} :
    (a.findBy? l s patterns).value = some b ↔
      ∃ before pattern after more, patterns = before ++ pattern :: after ∧
        (∀ p ∈ before, a.chosen l s p = []) ∧ a.chosen l s pattern = b :: more := by
  induction patterns with
  | nil =>
    constructor
    · intro h
      cases h
    · rintro ⟨before, pattern, after, more, hsplit, -⟩
      cases before <;> cases hsplit
  | cons pattern patterns ih =>
    rw [findBy?, Trace.value_bind, value_candidates]
    cases hchosen : a.choose (a.matchesOf l s pattern) with
    | cons c more =>
      constructor
      · intro h
        obtain rfl := Option.some_inj.1 h
        exact ⟨[], pattern, patterns, more, rfl, List.forall_mem_nil _, hchosen⟩
      · rintro ⟨before, pattern', after, more', hsplit, hbefore, hfirst⟩
        cases before with
        | nil =>
          obtain ⟨rfl, rfl⟩ := List.cons.inj hsplit
          obtain ⟨rfl, -⟩ := List.cons.inj (hchosen.symm.trans hfirst)
          rfl
        | cons p before =>
          obtain ⟨rfl, -⟩ := List.cons.inj hsplit
          cases hchosen.symm.trans (hbefore pattern List.mem_cons_self)
    | nil =>
      refine Iff.trans ih ⟨?_, ?_⟩
      · rintro ⟨before, pattern', after, more, rfl, hbefore, hfirst⟩
        exact ⟨pattern :: before, pattern', after, more, rfl,
          List.forall_mem_cons.2 ⟨hchosen, hbefore⟩, hfirst⟩
      · rintro ⟨before, pattern', after, more, hsplit, hbefore, hfirst⟩
        cases before with
        | nil =>
          obtain ⟨rfl, -⟩ := List.cons.inj hsplit
          cases hchosen.symm.trans hfirst
        | cons p before =>
          obtain ⟨-, rfl⟩ := List.cons.inj hsplit
          exact ⟨before, pattern', after, more, rfl, (List.forall_mem_cons.1 hbefore).2, hfirst⟩

theorem Anchor.value_find?_eq_some_iff {b : Block Float} :
    (a.find? l s).value = some b ↔ a.ResolvesTo l s b := Anchor.value_findBy?_eq_some_iff l s

theorem Anchor.resolves_iff : a.resolves l s = true ↔ a.Resolvable l s := by
  simp [resolves, Resolvable, chosen, value_candidates]

theorem Anchor.isSome_value_find?_iff :
    (a.find? l s).value.isSome = true ↔ a.Resolvable l s := by
  rw [isSome_find?, resolves_iff]

/-! ### The search for all anchors -/

/-- A search with names that are new puts the anchors that are found after what was found before. -/
theorem found_searchAnchors (search : AnchorSearch) {anchors : List Anchor}
    (hnames : (Members.names search.found ++ anchors.map (·.name)).Nodup) :
    (searchAnchors l s search anchors).value.found =
      search.found ++ anchors.filterMap fun a => (a.find? l s).value.map fun b => (a.name, b) := by
  induction anchors generalizing search with
  | nil => exact (List.append_nil _).symm
  | cons a anchors ih =>
    rw [searchAnchors_cons, List.filterMap_cons]
    rw [List.map_cons] at hnames
    cases hfind : (a.find? l s).value with
    | none =>
      have hrest := hnames.sublist ((List.sublist_cons_self _ _).append_left _)
      rw [← search.found_add_none a] at hrest
      rw [ih _ hrest, search.found_add_none]
      rfl
    | some b =>
      have hnew : a.name ∉ Members.names search.found := by
        intro hmem
        exact List.disjoint_of_nodup_append hnames hmem List.mem_cons_self
      have hadd : (search.add a (some b)).found = search.found ++ [(a.name, b)] := by
        show Members.put search.found a.name b = _
        exact Members.put_of_get?_eq_none b (Members.get?_of_not_mem hnew)
      have hrest :
          (Members.names (search.add a (some b)).found ++ anchors.map (·.name)).Nodup := by
        rw [hadd, Members.names, List.map_append, List.append_assoc]
        exact hnames
      rw [ih _ hrest, hadd, List.append_assoc]
      rfl

/-- The anchors that are found are those that resolve, in the order of their declaration. -/
theorem resolvesTo_filterMap_find? (anchors : List Anchor) :
    List.Forall₂ (fun (m : String × Block Float) a => m.1 = a.name ∧ a.ResolvesTo l s m.2)
      (anchors.filterMap fun a => (a.find? l s).value.map fun b => (a.name, b))
      (anchors.filter fun a => a.Resolvable l s) := by
  induction anchors with
  | nil => exact .nil
  | cons a anchors ih =>
    rw [List.filterMap_cons, List.filter_cons]
    cases hfind : (a.find? l s).value with
    | none =>
      have hnot : ¬ a.Resolvable l s := by
        rw [← Anchor.isSome_value_find?_iff, hfind]
        exact Bool.false_ne_true
      rw [decide_eq_false hnot]
      exact ih
    | some b =>
      have hresolves : a.Resolvable l s := by
        rw [← Anchor.isSome_value_find?_iff, hfind]
        rfl
      rw [decide_eq_true hresolves]
      exact .cons ⟨rfl, (Anchor.value_find?_eq_some_iff l s).1 hfind⟩ ih

/-! ### Warnings -/

/-- Whether a warning is about an optional anchor. -/
def aboutOptional (w : String) : Bool := Text.startsWith w "Optional anchor"

theorem aboutOptional_missingText (a : Anchor) : aboutOptional a.missingText = true := by
  have hbegin : a.missingText = "Optional anchor" ++ (" '" ++ (a.name ++ "' not found")) := by
    have hwords : "Optional anchor '" = "Optional anchor" ++ " '" := by decide
    show "Optional anchor '" ++ a.name ++ "' not found" = _
    rw [hwords, String.append_assoc, String.append_assoc]
  rw [hbegin, aboutOptional, Text.startsWith, List.isPrefixOf_iff_prefix, Text.units, Text.units,
    String.toList_append, List.flatMap_append]
  exact List.prefix_append _ _

theorem aboutOptional_eq_false {w : String} (hw : Begins 'A' w) : aboutOptional w = false := by
  rw [← Bool.not_eq_true, aboutOptional, Text.startsWith, List.isPrefixOf_iff_prefix]
  rintro ⟨rest, hrest⟩
  obtain ⟨cs, hcs⟩ := List.head?_eq_some_iff.1 hw
  have hletter : (Text.units w).head? = some 'A'.toNat := by
    rw [Text.units, hcs]
    rfl
  rw [← hrest, List.head?_append] at hletter
  have hother : (Text.units "Optional anchor").head? = some 'O'.toNat := by decide
  rw [hother] at hletter
  cases hletter

theorem filter_warnings_find? (a : Anchor) :
    (a.find? l s).trace.warnings.filter aboutOptional = [] := by
  rw [List.filter_eq_nil_iff]
  intro w hw
  rw [aboutOptional_eq_false (a.warns_findBy? l s a.patterns w hw)]
  exact Bool.false_ne_true

theorem filter_warnings_report (a : Anchor) :
    (a.report (a.find? l s).value).trace.warnings.filter aboutOptional =
      if a.required = false ∧ ¬ a.Resolvable l s then [a.missingText] else [] := by
  have hsome := Anchor.isSome_value_find?_iff l s (a := a)
  cases hfind : (a.find? l s).value with
  | some b =>
    rw [hfind] at hsome
    rw [if_neg fun h => h.2 (hsome.1 rfl)]
    rfl
  | none =>
    rw [hfind] at hsome
    have hnot : ¬ a.Resolvable l s := fun h => Bool.false_ne_true (hsome.2 h)
    cases hrequired : a.required with
    | true =>
      rw [if_neg fun h => Bool.false_ne_true h.1.symm, Anchor.report, hrequired]
      rfl
    | false =>
      have hreport : (a.report none).trace.warnings = [a.missingText] := by
        rw [Anchor.report, hrequired]
        rfl
      rw [if_pos ⟨rfl, hnot⟩, hreport, List.filter_singleton, aboutOptional_missingText]
      rfl

/-- A search warns of each optional anchor that does not resolve. -/
theorem missingTexts_searchAnchors (search : AnchorSearch) (anchors : List Anchor) :
    (searchAnchors l s search anchors).trace.warnings.filter aboutOptional =
      (anchors.filter fun a => a.required = false ∧ ¬ a.Resolvable l s).map
        Anchor.missingText := by
  induction anchors generalizing search with
  | nil => rfl
  | cons a anchors ih =>
    rw [searchAnchors, Trace.warnings_bind, Trace.warnings_bind, List.filter_append,
      List.filter_append, filter_warnings_find?, filter_warnings_report, ih, List.filter_cons]
    by_cases hmissing : a.required = false ∧ ¬ a.Resolvable l s
    · rw [if_pos hmissing, decide_eq_true hmissing]
      rfl
    · rw [if_neg hmissing, decide_eq_false hmissing]
      rfl

end

/-! ### The outcome -/

/-- If all required anchors resolve, the search finds exactly the anchors that resolve, in order,
each at its block, and otherwise it names the first required one that does not. In both cases it
warns of each optional anchor that does not resolve. -/
theorem findAnchors_complete {anchors : List Anchor} (hnames : (anchors.map (·.name)).Nodup)
    (l : Layout Float) (s : Settings Float) :
    ((∀ a ∈ anchors, a.required = true → a.Resolvable l s) →
      ∃ found, (findAnchors l s anchors).value = .ok found ∧
        List.Forall₂ (fun (m : String × Block Float) a => m.1 = a.name ∧ a.ResolvesTo l s m.2)
          found (anchors.filter fun a => a.Resolvable l s)) ∧
    ((¬ ∀ a ∈ anchors, a.required = true → a.Resolvable l s) →
      ∃ before a after, anchors = before ++ a :: after ∧
        (∀ b ∈ before, b.required = true → b.Resolvable l s) ∧
        a.required = true ∧ ¬ a.Resolvable l s ∧
        (findAnchors l s anchors).value = .error ⟨a.name⟩) ∧
    (findAnchors l s anchors).trace.warnings.filter (Text.startsWith · "Optional anchor") =
      (anchors.filter fun a => a.required = false ∧ ¬ a.Resolvable l s).map fun a =>
        s!"Optional anchor '{a.name}' not found" := by
  have hmisses : ∀ a : Anchor, (a.required && !a.resolves l s) = true ↔
      a.required = true ∧ ¬ a.Resolvable l s := by
    intro a
    rw [Bool.and_eq_true, Bool.not_eq_true', ← Anchor.resolves_iff, Bool.not_eq_true]
  refine ⟨fun hall => ?_, fun hnot => ?_, ?_⟩
  · have hnone : firstMissing l s anchors = none := by
      refine List.find?_eq_none.2 fun a ha hmissing => ?_
      obtain ⟨hrequired, hresolves⟩ := (hmisses a).1 hmissing
      exact hresolves (hall a ha hrequired)
    have hstart : (Members.names (AnchorSearch.mk [] none).found ++
        anchors.map (·.name)).Nodup := hnames
    have hfound := found_searchAnchors l s _ hstart
    rw [value_findAnchors, hnone]
    exact ⟨_, rfl, hfound ▸ resolvesTo_filterMap_find? l s anchors⟩
  · have hsome : firstMissing l s anchors ≠ none := by
      intro hnone
      refine hnot fun a ha hrequired => ?_
      by_contra hresolves
      exact List.find?_eq_none.1 hnone a ha ((hmisses a).2 ⟨hrequired, hresolves⟩)
    obtain ⟨a, ha⟩ := Option.ne_none_iff_exists'.1 hsome
    obtain ⟨hmissing, before, after, hsplit, hbefore⟩ := List.find?_eq_some_iff_append.1 ha
    obtain ⟨hrequired, hresolves⟩ := (hmisses a).1 hmissing
    refine ⟨before, a, after, hsplit, fun b hb hneeds => ?_, hrequired, hresolves, ?_⟩
    · by_contra hnever
      have hb' := hbefore b hb
      rw [(hmisses b).2 ⟨hneeds, hnever⟩] at hb'
      cases hb'
    · rw [value_findAnchors, ha]
  · rw [warnings_findAnchors]
    exact missingTexts_searchAnchors l s _ anchors

/-- A page whose blocks say "Final", "Score" and "Final remarks". -/
def scorePage : Layout Float :=
  onePage [
    ⟨"a", "Final", ⟨0.1, 0.1, 0.2, 0.12, 0.0⟩, 99.0, none, false, .text⟩,
    ⟨"b", "Score", ⟨0.21, 0.1, 0.3, 0.12, 0.0⟩, 98.0, none, false, .text⟩,
    ⟨"c", "Final remarks", ⟨0.1, 0.8, 0.3, 0.82, 0.0⟩, 97.0, none, false, .text⟩]

/-- An anchor of some patterns that is a part of a text. -/
def partAnchor (name : String) (patterns : List String) (hint : Option LocationHint)
    (required : Bool) : Anchor :=
  ⟨name, patterns, .contains, hint, required, none⟩

/-- An anchor that is required and is not on `scorePage`. -/
def venueAnchor : Anchor := partAnchor "venue" ["Venue"] none true

/-- Anchors for `scorePage`, some of them between the others: the score is spread over two blocks,
the remarks are below, and neither the referee nor the coach is on the page. -/
def pageAnchors (between : List Anchor) : List Anchor :=
  [partAnchor "referee" ["Referee"] none false] ++ between ++
    [partAnchor "score" ["Sum", " final  SCORE"] none true,
      partAnchor "remarks" ["Final"] (some .bottomHalf) true,
      partAnchor "coach" ["Coach"] none false]

/-- Without a venue the score and the remarks are found. With one, which is required but not on the
page, the search names it, and it has looked for the coach after it. -/
theorem findAnchors_complete_scores :
    (((pageAnchors []).map (·.name)).Nodup ∧
      ∃ found, (findAnchors scorePage .standard (pageAnchors [])).value = .ok found ∧
        found.map (·.1) = ["score", "remarks"]) ∧
    ((pageAnchors [venueAnchor]).map (·.name)).Nodup ∧
    (findAnchors scorePage .standard (pageAnchors [venueAnchor])).value = .error ⟨"venue"⟩ ∧
    (findAnchors scorePage .standard (pageAnchors [venueAnchor])).trace.warnings.filter
        (Text.startsWith · "Optional anchor") =
      ["Optional anchor 'referee' not found", "Optional anchor 'coach' not found"] := by
  have hresolvable : ∀ a ∈ pageAnchors [venueAnchor], a.Resolvable scorePage .standard ↔
      a.name = "score" ∨ a.name = "remarks" := by
    decide +kernel
  have hsub : pageAnchors [] ⊆ pageAnchors [venueAnchor] := by decide
  have hnames : ((pageAnchors []).map (·.name)).Nodup := by decide
  have hnames' : ((pageAnchors [venueAnchor]).map (·.name)).Nodup := by decide
  refine ⟨⟨hnames, ?_⟩, hnames', ?_⟩
  · have hall : ∀ a ∈ pageAnchors [], a.required = true →
        a.name = "score" ∨ a.name = "remarks" := by
      decide
    have hfilter : ((pageAnchors []).filter fun a => a.Resolvable scorePage .standard) =
        (pageAnchors []).filter fun a => a.name = "score" ∨ a.name = "remarks" :=
      List.filter_congr fun a ha => decide_eq_decide.2 (hresolvable a (hsub ha))
    obtain ⟨found, hfound, hblocks⟩ := (findAnchors_complete hnames scorePage .standard).1
      fun a ha hrequired => (hresolvable a (hsub ha)).2 (hall a ha hrequired)
    have hsame : List.Forall₂ (· = ·) (found.map (·.1))
        (((pageAnchors []).filter fun a => a.Resolvable scorePage .standard).map (·.name)) :=
      List.forall₂_map_left_iff.2 (List.forall₂_map_right_iff.2 (hblocks.imp fun m a h => h.1))
    rw [List.forall₂_eq_eq_eq, hfilter] at hsame
    exact ⟨found, hfound, hsame.trans (by decide)⟩
  · have honly : ∀ a ∈ pageAnchors [venueAnchor], a.required = true →
        ¬ (a.name = "score" ∨ a.name = "remarks") → a.name = "venue" := by
      decide
    have hvenue : venueAnchor ∈ pageAnchors [venueAnchor] := by decide
    obtain ⟨-, hmissing, hwarnings⟩ := findAnchors_complete hnames' scorePage .standard
    obtain ⟨before, a, after, hsplit, -, hrequired, hresolves, herror⟩ := hmissing
      fun hall => absurd ((hresolvable _ hvenue).1 (hall _ hvenue rfl)) (by decide)
    have ha : a ∈ pageAnchors [venueAnchor] := by
      rw [hsplit]
      exact List.mem_append_right _ List.mem_cons_self
    have hname := honly a ha hrequired fun h => hresolves ((hresolvable a ha).2 h)
    have hfilter : ((pageAnchors [venueAnchor]).filter fun a =>
          a.required = false ∧ ¬ a.Resolvable scorePage .standard) =
        (pageAnchors [venueAnchor]).filter fun a =>
          a.required = false ∧ ¬ (a.name = "score" ∨ a.name = "remarks") :=
      List.filter_congr fun a ha =>
        decide_eq_decide.2 (and_congr_right fun _ => not_congr (hresolvable a ha))
    rw [herror, hname, hwarnings, hfilter]
    exact ⟨rfl, by decide⟩

end PageExtract
