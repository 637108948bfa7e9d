/-
Processors whose parts fit together.

A processor has no issues exactly if its parts fit together, and each thing that does not fit is
listed as an issue once:

* `Processor.IsConsistent` — the parts fit together;
* `Processor.violations` — how often a processor gives reason for an issue;
* `perm_anchorIssues`, `perm_regionIssues` — the issues of one pass, kind by kind;
* `Processor.count_specIssues`, `Processor.specIssues_eq_nil_iff` — what is listed, and when that is
  nothing;
* `Processor.specIssues_consistency` — both together.
-/
import Mathlib.Data.List.Count
import Mathlib.Data.List.Nodup
import PageExtract.Processor.Integrity

namespace PageExtract

/-- The patterns of an anchor that should be regular expressions. -/
def Anchor.regexes (a : Anchor) : List String :=
  if a.patternKind = .regex then a.patterns else []

namespace Processor

/-- The parts of a processor fit together: names are names and differ, patterns that should be
regular expressions are, regions refer to anchors that are there, and field paths are paths. -/
structure IsConsistent (p : Processor) : Prop where
  anchorNames : ∀ a ∈ p.anchors, isName a.name = true
  anchorsDistinct : (p.anchors.map (·.name)).Nodup
  anchorPatterns : ∀ a ∈ p.anchors, a.patternKind = .regex →
    ∀ s ∈ a.patterns, (Pattern.parse? s).isSome = true
  regionNames : ∀ r ∈ p.regions, isName r.name = true
  regionsDistinct : (p.regions.map (·.name)).Nodup
  starts : ∀ r ∈ p.regions, r.startAnchor ∈ p.anchors.map (·.name)
  ends : ∀ r ∈ p.regions, r.endAnchor = endOfDocument ∨ r.endAnchor ∈ p.anchors.map (·.name)
  headers : ∀ r ∈ p.regions, ∀ hs ∈ r.headerAnchors, ∀ h ∈ hs, h ∈ p.anchors.map (·.name)
  paths : ∀ path ∈ p.fieldPaths, ∃ segments, Path.parse path = .ok segments

/-- How many reasons a processor gives for an issue: each anchor or region with the name, each but
the first if the issue is that the name is repeated, each pattern, each reference and each path. -/
def violations (p : Processor) : SpecIssue → Nat
  | .anchorName n => if isName n then 0 else (p.anchors.map (·.name)).count n
  | .repeatedAnchor n => (p.anchors.map (·.name)).count n - 1
  | .anchorPattern n s =>
    if (Pattern.parse? s).isSome then 0
    else ((p.anchors.filter fun a => a.name = n).flatMap Anchor.regexes).count s
  | .regionName n => if isName n then 0 else (p.regions.map (·.name)).count n
  | .repeatedRegion n => (p.regions.map (·.name)).count n - 1
  | .undeclaredStart n a =>
    if a ∈ p.anchors.map (·.name) then 0
    else p.regions.countP fun r => r.name = n ∧ r.startAnchor = a
  | .undeclaredEnd n a =>
    if a = endOfDocument ∨ a ∈ p.anchors.map (·.name) then 0
    else p.regions.countP fun r => r.name = n ∧ r.endAnchor = a
  | .undeclaredHeader n a =>
    if a ∈ p.anchors.map (·.name) then 0
    else ((p.regions.filter fun r => r.name = n).flatMap fun r => r.headerAnchors.getD []).count a
  | .path e => p.fieldPaths.countP fun path => Path.parse path = .error e

end Processor

/-! ### One pass, kind by kind -/

/-- The names of a row that occurred before, in the row or among the names seen. -/
def repeats (seen : List String) : List String → List String
  | [] => []
  | n :: ns => if n ∈ seen then n :: repeats (n :: seen) ns else repeats (n :: seen) ns

/-- Each occurrence of a name is a repetition, except for the first one of a name not seen. -/
theorem count_repeats (n : String) (seen ns : List String) :
    (repeats seen ns).count n = ns.count n - if n ∈ seen then 0 else 1 := by
  induction ns generalizing seen with
  | nil => simp [repeats]
  | cons m ns ih =>
    unfold repeats
    by_cases hm : m = n
    · subst hm
      by_cases hseen : m ∈ seen <;> simp [hseen, ih]
    · by_cases hseen : m ∈ seen <;> simp [hseen, ih, hm, Ne.symm hm]

/-- Issues of three kinds for one part and those for the parts after it, kind by kind. -/
theorem perm_of_rest {rest xs ys zs : List SpecIssue} (h : rest.Perm (xs ++ (ys ++ zs)))
    (as bs cs : List SpecIssue) :
    (as ++ bs ++ cs ++ rest).Perm ((as ++ xs) ++ ((bs ++ ys) ++ (cs ++ zs))) := by
  rw [List.perm_iff_count] at h ⊢
  intro issue
  have hrest := h issue
  simp only [List.count_append] at hrest ⊢
  omega

theorem issues_invalid (issue : String → SpecIssue) (n : String) (ns : List String) :
    (((n :: ns).filter fun n => !isName n).map issue) =
      issueIf (!isName n) (issue n) ++ (ns.filter fun n => !isName n).map issue := by
  cases hn : isName n <;> simp [issueIf, hn]

theorem issues_repeats (issue : String → SpecIssue) (seen : List String) (n : String)
    (ns : List String) : (repeats seen (n :: ns)).map issue =
      issueIf (seen.contains n) (issue n) ++ (repeats (n :: seen) ns).map issue := by
  rw [repeats]
  by_cases hn : n ∈ seen <;> simp [issueIf, hn]

theorem perm_anchorIssues (seen : List String) (as : List Anchor) :
    (anchorIssues seen as).Perm
      (((as.map (·.name)).filter fun n => !isName n).map .anchorName ++
        ((repeats seen (as.map (·.name))).map .repeatedAnchor ++
          as.flatMap Anchor.patternIssues)) := by
  induction as generalizing seen with
  | nil => exact .refl []
  | cons a as ih =>
    rw [List.map_cons, issues_invalid, issues_repeats, List.flatMap_cons]
    exact perm_of_rest (ih (a.name :: seen)) _ _ _

theorem perm_regionIssues (declared seen : List String) (rs : List Region) :
    (regionIssues declared seen rs).Perm
      (((rs.map (·.name)).filter fun n => !isName n).map .regionName ++
        ((repeats seen (rs.map (·.name))).map .repeatedRegion ++
          rs.flatMap (Region.referenceIssues declared))) := by
  induction rs generalizing seen with
  | nil => exact .refl []
  | cons r rs ih =>
    rw [List.map_cons, issues_invalid, issues_repeats, List.flatMap_cons]
    exact perm_of_rest (ih (r.name :: seen)) _ _ _

/-! ### Counts -/

theorem count_issueIf (test : Bool) (i issue : SpecIssue) :
    (issueIf test i).count issue = if test = true ∧ i = issue then 1 else 0 := by
  cases test <;> simp [issueIf, List.count_singleton]

/-- The issues of one kind that are listed for what fails a test. -/
theorem count_issues {issue : String → SpecIssue} (hissue : Function.Injective issue)
    (test : String → Bool) (x : String) (xs : List String) :
    ((xs.filter test).map issue).count (issue x) = if test x then xs.count x else 0 := by
  rw [List.count_map_of_injective _ _ hissue]
  split
  · exact List.count_filter ‹_›
  · exact List.count_eq_zero.2 fun hx => ‹¬ _› (List.mem_filter.1 hx).2

theorem count_invalid {issue : String → SpecIssue} (hissue : Function.Injective issue) (n : String)
    (ns : List String) : ((ns.filter fun n => !isName n).map issue).count (issue n) =
      if isName n then 0 else ns.count n := by
  rw [count_issues hissue]
  cases isName n <;> rfl

theorem count_repeated {issue : String → SpecIssue} (hissue : Function.Injective issue) (n : String)
    (ns : List String) : ((repeats [] ns).map issue).count (issue n) = ns.count n - 1 := by
  rw [List.count_map_of_injective _ _ hissue, count_repeats, if_neg List.not_mem_nil]

/-- The same if the issues also name the part that they were found in. -/
theorem count_issues_of {issue : String → String → SpecIssue} (hissue : Function.Injective2 issue)
    (m n : String) (test : String → Bool) (x : String) (xs : List String) :
    ((xs.filter test).map (issue m)).count (issue n x) =
      if m = n ∧ test x = true then xs.count x else 0 := by
  by_cases hm : m = n
  · subst hm
    rw [count_issues (hissue.right m)]
    simp
  · have hnone : issue n x ∉ (xs.filter test).map (issue m) := by
      intro h
      obtain ⟨y, -, hy⟩ := List.mem_map.1 h
      exact hm (hissue hy).1
    simp [List.count_eq_zero.2 hnone, hm]

theorem count_patternIssues (n s : String) (as : List Anchor) :
    (as.flatMap Anchor.patternIssues).count (.anchorPattern n s) =
      if (Pattern.parse? s).isSome then 0
      else ((as.filter fun a => a.name = n).flatMap Anchor.regexes).count s := by
  have hinjective : Function.Injective2 SpecIssue.anchorPattern :=
    fun _ _ _ _ h => SpecIssue.anchorPattern.inj h
  induction as with
  | nil => simp
  | cons a as ih =>
    rw [List.flatMap_cons, List.count_append, ih, Anchor.patternIssues]
    by_cases hkind : a.patternKind = .regex
    · rw [if_pos hkind, count_issues_of hinjective]
      cases hs : Pattern.parse? s with
      | some pattern => simp
      | none => by_cases hn : a.name = n <;> simp [hn, hkind, Anchor.regexes]
    · by_cases hn : a.name = n <;> simp [hn, hkind, Anchor.regexes]

section

variable (declared : List String) (n a : String)

/-- The issues that a region has with the anchors it refers to, by kind. -/
theorem Region.count_referenceIssues (r : Region) :
    (r.referenceIssues declared).count (.undeclaredStart n a) =
        (if a ∈ declared then 0 else if r.name = n ∧ r.startAnchor = a then 1 else 0) ∧
      (r.referenceIssues declared).count (.undeclaredEnd n a) =
        (if a = endOfDocument ∨ a ∈ declared then 0
        else if r.name = n ∧ r.endAnchor = a then 1 else 0) ∧
      (r.referenceIssues declared).count (.undeclaredHeader n a) =
        if a ∈ declared then 0
        else if r.name = n then (r.headerAnchors.getD []).count a else 0 := by
  have hinjective : Function.Injective2 SpecIssue.undeclaredHeader :=
    fun _ _ _ _ h => SpecIssue.undeclaredHeader.inj h
  have hstart : ∀ hs : List String,
      SpecIssue.undeclaredStart n a ∉ hs.map (.undeclaredHeader r.name) := by simp
  have hend : ∀ hs : List String,
      SpecIssue.undeclaredEnd n a ∉ hs.map (.undeclaredHeader r.name) := by simp
  simp only [referenceIssues, List.count_append, count_issueIf, count_issues_of hinjective,
    List.count_eq_zero.2 (hstart _), List.count_eq_zero.2 (hend _), Region.isOpen]
  refine ⟨?_, ?_, ?_⟩
  · grind
  · grind
  · grind

theorem count_undeclaredStart (rs : List Region) :
    (rs.flatMap (Region.referenceIssues declared)).count (.undeclaredStart n a) =
      if a ∈ declared then 0 else rs.countP fun r => r.name = n ∧ r.startAnchor = a := by
  induction rs with
  | nil => simp
  | cons r rs ih =>
    rw [List.flatMap_cons, List.count_append, ih, (r.count_referenceIssues declared n a).1]
    by_cases ha : a ∈ declared
    · simp [ha]
    · simp [ha, List.countP_cons, Nat.add_comm]

theorem count_undeclaredEnd (rs : List Region) :
    (rs.flatMap (Region.referenceIssues declared)).count (.undeclaredEnd n a) =
      if a = endOfDocument ∨ a ∈ declared then 0
      else rs.countP fun r => r.name = n ∧ r.endAnchor = a := by
  induction rs with
  | nil => simp
  | cons r rs ih =>
    rw [List.flatMap_cons, List.count_append, ih, (r.count_referenceIssues declared n a).2.1]
    by_cases ha : a = endOfDocument ∨ a ∈ declared
    · simp only [if_pos ha]
    · simp [ha, List.countP_cons, Nat.add_comm]

theorem count_undeclaredHeader (rs : List Region) :
    (rs.flatMap (Region.referenceIssues declared)).count (.undeclaredHeader n a) =
      if a ∈ declared then 0
      else ((rs.filter fun r => r.name = n).flatMap fun r => r.headerAnchors.getD []).count a := by
  induction rs with
  | nil => simp
  | cons r rs ih =>
    rw [List.flatMap_cons, List.count_append, ih, (r.count_referenceIssues declared n a).2.2]
    by_cases ha : a ∈ declared
    · simp only [if_pos ha]
    · by_cases hn : r.name = n <;> simp [ha, hn]

end

theorem count_path (e : PathError) (paths : List String) :
    (paths.flatMap pathIssue).count (.path e) =
      paths.countP fun path => Path.parse path = .error e := by
  induction paths with
  | nil => simp
  | cons path paths ih =>
    rw [List.flatMap_cons, List.count_append, ih, List.countP_cons, pathIssue, Nat.add_comm]
    cases Path.parse path <;> simp [List.count_singleton]

/-! ### Kinds of issues -/

section

variable {issue : SpecIssue}

theorem count_map_other {α : Type} {kind : α → SpecIssue} (h : ∀ x, kind x ≠ issue) (xs : List α) :
    (xs.map kind).count issue = 0 := by
  refine List.count_eq_zero.2 fun hissue => ?_
  obtain ⟨x, -, hx⟩ := List.mem_map.1 hissue
  exact h x hx

theorem count_patternIssues_other (h : ∀ n s, issue ≠ .anchorPattern n s) (as : List Anchor) :
    (as.flatMap Anchor.patternIssues).count issue = 0 := by
  refine List.count_eq_zero.2 fun hissue => ?_
  obtain ⟨a, -, hissue⟩ := List.mem_flatMap.1 hissue
  unfold Anchor.patternIssues at hissue
  split at hissue
  · obtain ⟨s, -, rfl⟩ := List.mem_map.1 hissue
    exact h a.name s rfl
  · cases hissue

theorem eq_of_mem_issueIf {test : Bool} {i : SpecIssue} (h : issue ∈ issueIf test i) :
    issue = i := by
  cases test with
  | false => cases h
  | true => exact List.mem_singleton.1 h

theorem count_referenceIssues_other (hstart : ∀ n a, issue ≠ .undeclaredStart n a)
    (hend : ∀ n a, issue ≠ .undeclaredEnd n a) (hheader : ∀ n a, issue ≠ .undeclaredHeader n a)
    (declared : List String) (rs : List Region) :
    (rs.flatMap (Region.referenceIssues declared)).count issue = 0 := by
  refine List.count_eq_zero.2 fun hissue => ?_
  obtain ⟨r, -, hissue⟩ := List.mem_flatMap.1 hissue
  obtain hissue | hissue := List.mem_append.1 hissue
  · obtain hissue | hissue := List.mem_append.1 hissue
    · exact hstart _ _ (eq_of_mem_issueIf hissue)
    · exact hend _ _ (eq_of_mem_issueIf hissue)
  · obtain ⟨a, -, rfl⟩ := List.mem_map.1 hissue
    exact hheader _ _ rfl

theorem count_pathIssues_other (h : ∀ e, issue ≠ .path e) (paths : List String) :
    (paths.flatMap pathIssue).count issue = 0 := by
  refine List.count_eq_zero.2 fun hissue => ?_
  obtain ⟨path, -, hissue⟩ := List.mem_flatMap.1 hissue
  unfold pathIssue at hissue
  split at hissue
  · cases hissue
  · exact h _ (List.mem_singleton.1 hissue)

end

/-! ### No reason for an issue -/

section

variable {α : Type} (known : String → Prop) [DecidablePred known]

theorem invalid_eq_zero_iff (ns : List String) :
    (∀ n, (if isName n then 0 else ns.count n) = 0) ↔ ∀ n ∈ ns, isName n = true := by
  constructor
  · intro h n hn
    have hcount := List.count_pos_iff.2 hn
    have hzero := h n
    by_contra hname
    rw [if_neg hname] at hzero
    omega
  · intro h n
    split
    · rfl
    · exact List.count_eq_zero.2 fun hn => ‹¬ _› (h n hn)

theorem repeated_eq_zero_iff (ns : List String) : (∀ n, ns.count n - 1 = 0) ↔ ns.Nodup := by
  simp only [List.nodup_iff_count_le_one, Nat.sub_eq_zero_iff_le]

/-- A name that each part refers to. -/
theorem reference_eq_zero_iff (name reference : α → String) (xs : List α) :
    (∀ n a, (if known a then 0 else xs.countP fun x => name x = n ∧ reference x = a) = 0) ↔
      ∀ x ∈ xs, known (reference x) := by
  constructor
  · intro h x hx
    have hzero := h (name x) (reference x)
    by_contra hunknown
    rw [if_neg hunknown, List.countP_eq_zero] at hzero
    exact hzero x hx (by simp)
  · intro h n a
    split
    · rfl
    · rename_i hunknown
      refine List.countP_eq_zero.2 fun x hx hboth => hunknown ?_
      obtain ⟨-, rfl⟩ := of_decide_eq_true hboth
      exact h x hx

/-- Texts that each part lists. -/
theorem listed_eq_zero_iff (name : α → String) (texts : α → List String) (xs : List α) :
    (∀ n a, (if known a then 0
      else ((xs.filter fun x => name x = n).flatMap texts).count a) = 0) ↔
      ∀ x ∈ xs, ∀ a ∈ texts x, known a := by
  constructor
  · intro h x hx a ha
    have hzero := h (name x) a
    by_contra hunknown
    rw [if_neg hunknown, List.count_eq_zero] at hzero
    exact hzero (List.mem_flatMap.2 ⟨x, List.mem_filter.2 ⟨hx, by simp⟩, ha⟩)
  · intro h n a
    split
    · rfl
    · rename_i hunknown
      refine List.count_eq_zero.2 fun hmem => hunknown ?_
      obtain ⟨x, hx, ha⟩ := List.mem_flatMap.1 hmem
      exact h x (List.mem_filter.1 hx).1 a ha

theorem path_eq_zero_iff (paths : List String) :
    (∀ e, (paths.countP fun path => Path.parse path = .error e) = 0) ↔
      ∀ path ∈ paths, ∃ segments, Path.parse path = .ok segments := by
  simp only [List.countP_eq_zero, decide_eq_true_eq]
  constructor
  · intro h path hpath
    cases hparse : Path.parse path with
    | ok segments => exact ⟨segments, rfl⟩
    | error e => exact absurd hparse (h e path hpath)
  · intro h e path hpath herror
    obtain ⟨segments, hparse⟩ := h path hpath
    rw [hparse] at herror
    cases herror

theorem Anchor.forall_mem_regexes (a : Anchor) (P : String → Prop) :
    (∀ s ∈ a.regexes, P s) ↔ (a.patternKind = .regex → ∀ s ∈ a.patterns, P s) := by
  unfold regexes
  split <;> simp_all

theorem forall_mem_getD (texts? : Option (List String)) (P : String → Prop) :
    (∀ s ∈ texts?.getD [], P s) ↔ ∀ texts ∈ texts?, ∀ s ∈ texts, P s := by
  cases texts? <;> simp

end

/-! ### All issues -/

namespace Processor

theorem count_specIssues (p : Processor) (issue : SpecIssue) :
    p.specIssues.count issue = p.violations issue := by
  rw [specIssues, List.count_append, List.count_append, (perm_anchorIssues [] p.anchors).count_eq,
    (perm_regionIssues _ [] p.regions).count_eq]
  simp only [List.count_append]
  -- Of the kinds of issues that are listed, one is that of the issue and the others are not.
  cases issue with
  | anchorName n =>
    have h := count_invalid (fun _ _ h => SpecIssue.anchorName.inj h) n (p.anchors.map (·.name))
    simp [h, count_map_other, count_patternIssues_other, count_referenceIssues_other,
      count_pathIssues_other, violations]
  | repeatedAnchor n =>
    have h := count_repeated (fun _ _ h => SpecIssue.repeatedAnchor.inj h) n
      (p.anchors.map (·.name))
    simp [h, count_map_other, count_patternIssues_other, count_referenceIssues_other,
      count_pathIssues_other, violations]
  | anchorPattern n s =>
    simp [count_patternIssues, count_map_other, count_referenceIssues_other,
      count_pathIssues_other, violations]
  | regionName n =>
    have h := count_invalid (fun _ _ h => SpecIssue.regionName.inj h) n (p.regions.map (·.name))
    simp [h, count_map_other, count_patternIssues_other, count_referenceIssues_other,
      count_pathIssues_other, violations]
  | repeatedRegion n =>
    have h := count_repeated (fun _ _ h => SpecIssue.repeatedRegion.inj h) n
      (p.regions.map (·.name))
    simp [h, count_map_other, count_patternIssues_other, count_referenceIssues_other,
      count_pathIssues_other, violations]
  | undeclaredStart n a =>
    simp [count_undeclaredStart, count_map_other, count_patternIssues_other,
      count_pathIssues_other, violations]
  | undeclaredEnd n a =>
    simp [count_undeclaredEnd, count_map_other, count_patternIssues_other,
      count_pathIssues_other, violations]
  | undeclaredHeader n a =>
    simp [count_undeclaredHeader, count_map_other, count_patternIssues_other,
      count_pathIssues_other, violations]
  | path e =>
    simp [count_path, count_map_other, count_patternIssues_other, count_referenceIssues_other,
      violations]

/-- A processor gives no reason for any issue exactly if its parts fit together. -/
theorem violations_eq_zero_iff (p : Processor) :
    (∀ issue, p.violations issue = 0) ↔ p.IsConsistent := by
  let declared (a : String) : Prop := a ∈ p.anchors.map (·.name)
  have hanchors := invalid_eq_zero_iff (p.anchors.map (·.name))
  have hregions := invalid_eq_zero_iff (p.regions.map (·.name))
  rw [List.forall_mem_map] at hanchors hregions
  have hpatterns := listed_eq_zero_iff (fun s => (Pattern.parse? s).isSome = true)
    Anchor.name Anchor.regexes p.anchors
  simp only [Anchor.forall_mem_regexes] at hpatterns
  have hstarts := reference_eq_zero_iff declared Region.name Region.startAnchor p.regions
  have hends := reference_eq_zero_iff (fun a => a = endOfDocument ∨ declared a) Region.name
    Region.endAnchor p.regions
  have hheaders := listed_eq_zero_iff declared Region.name (fun r => r.headerAnchors.getD [])
    p.regions
  simp only [forall_mem_getD] at hheaders
  constructor
  · intro h
    exact ⟨hanchors.1 fun n => h (.anchorName n),
      (repeated_eq_zero_iff _).1 fun n => h (.repeatedAnchor n),
      hpatterns.1 fun n s => h (.anchorPattern n s),
      hregions.1 fun n => h (.regionName n),
      (repeated_eq_zero_iff _).1 fun n => h (.repeatedRegion n),
      hstarts.1 fun n a => h (.undeclaredStart n a),
      hends.1 fun n a => h (.undeclaredEnd n a),
      hheaders.1 fun n a => h (.undeclaredHeader n a),
      (path_eq_zero_iff _).1 fun e => h (.path e)⟩
  · intro h issue
    cases issue with
    | anchorName n => exact hanchors.2 h.anchorNames n
    | repeatedAnchor n => exact (repeated_eq_zero_iff _).2 h.anchorsDistinct n
    | anchorPattern n s => exact hpatterns.2 h.anchorPatterns n s
    | regionName n => exact hregions.2 h.regionNames n
    | repeatedRegion n => exact (repeated_eq_zero_iff _).2 h.regionsDistinct n
    | undeclaredStart n a => exact hstarts.2 h.starts n a
    | undeclaredEnd n a => exact hends.2 h.ends n a
    | undeclaredHeader n a => exact hheaders.2 h.headers n a
    | path e => exact (path_eq_zero_iff _).2 h.paths e

theorem specIssues_eq_nil_iff (p : Processor) : p.specIssues = [] ↔ p.IsConsistent := by
  rw [← violations_eq_zero_iff, List.eq_nil_iff_forall_not_mem]
  exact forall_congr' fun issue => by rw [← p.count_specIssues, List.count_eq_zero]

/-- A processor has no issues exactly if its parts fit together, and an issue is listed as often as
the processor gives reason for it. -/
theorem specIssues_consistency (p : Processor) :
    (p.specIssues = [] ↔ p.IsConsistent) ∧
      ∀ issue, p.specIssues.count issue = p.violations issue :=
  ⟨p.specIssues_eq_nil_iff, p.count_specIssues⟩

/-- An anchor that is declared twice and a region that ends nowhere. -/
example : specIssues ⟨"order", "Order", "generic", 1.0, "", "", none, [],
    [⟨"item", ["Item"], .exact, none, true, none⟩, ⟨"item", ["("], .regex, none, true, none⟩],
    [⟨"lines", "item", "total", .table, none⟩], [⟨"lines[].no", "region.lines.column[0]", none⟩],
    [], [], none⟩ =
    [.repeatedAnchor "item", .anchorPattern "item" "(", .undeclaredEnd "lines" "total"] := by
  decide +kernel

end Processor

end PageExtract
