/-
What a search for regions finds.

A region resolves, or it is skipped for one of two reasons, each with a warning of its own: an
anchor of it was not found, or its two anchors are on different pages. As regions have different
names, a warning tells which region was skipped, and why.

* `Region.MissesAnchor`, `Region.Crosses` — why a region is skipped;
* `Region.isSome_find?`, `Region.mem_warnings_find?` — one region;
* `has_findRegions` — the regions that are found;
* `missingText_mem_iff`, `crossingText_mem_iff` — the regions that are skipped.
-/
import Mathlib.Data.List.Nodup
import PageExtract.Proofs.Execution.Quiet
import PageExtract.Proofs.Value.Members

namespace PageExtract

variable {l : Layout Float} {found : FoundAnchors Float}

/-! ### One region -/

/-- Whether an anchor of a region was not found. -/
def Region.MissesAnchor (found : FoundAnchors Float) (r : Region) : Prop :=
  Members.get? found r.startAnchor = none ∨
    (r.isOpen = false ∧ Members.get? found r.endAnchor = none)

/-- Whether the two anchors of a region were found on different pages. -/
def Region.Crosses (found : FoundAnchors Float) (r : Region) : Prop :=
  r.isOpen = false ∧ ∃ start stop, Members.get? found r.startAnchor = some start ∧
    Members.get? found r.endAnchor = some stop ∧ (stop.box.page == start.box.page) = false

/-- The words for a region that misses an anchor. -/
def Region.missingText (r : Region) : String := s!"Region '{r.name}' skipped: anchor not found"

/-- The words for a region whose anchors are on different pages. -/
def Region.crossingText (r : Region) : String :=
  s!"Region '{r.name}' skipped: anchors are on different pages"

theorem Region.value_skip (r : Region) (start stop : Option (Block Float)) :
    (r.skip start stop).value = none := rfl

theorem Region.warnings_skip (r : Region) (start stop : Option (Block Float)) :
    (r.skip start stop).trace.warnings = [r.missingText] := rfl

/-- Between blocks on different pages there is no region. -/
theorem Region.between_of_ne (l : Layout Float) (r : Region) {start stop : Block Float}
    (hpage : (stop.box.page == start.box.page) = false) :
    (r.between l start (some stop)).value = none ∧
      (r.between l start (some stop)).trace.warnings = [r.crossingText] := by
  unfold between
  rw [Option.filter_some, hpage]
  exact ⟨rfl, rfl⟩

theorem Region.between_of_eq (l : Layout Float) (r : Region) (start : Block Float)
    (stop : Option (Block Float)) (hpage : ∀ b ∈ stop, (b.box.page == start.box.page) = true) :
    (r.between l start stop).value = some (l.blocksBetween start stop) ∧
      (r.between l start stop).trace.warnings = [] := by
  have hnone : stop.filter (fun e => !(e.box.page == start.box.page)) = none := by
    rw [Option.filter_eq_none_iff]
    intro b hb
    simp [hpage b hb]
  unfold between
  rw [hnone]
  exact ⟨rfl, rfl⟩

/-- A region that is found resolves. -/
theorem Region.isSome_find? (l : Layout Float) (found : FoundAnchors Float) (r : Region) :
    (r.find? l found).value.isSome = true ↔ r.Resolves found := by
  unfold find? Resolves stop?
  simp only
  cases Members.get? found r.startAnchor with
  | none => simp [r.value_skip]
  | some start =>
    cases hopen : r.isOpen with
    | true => simp [r.between_of_eq l start none]
    | false =>
      cases Members.get? found r.endAnchor with
      | none => simp [r.value_skip]
      | some stop =>
        cases hpage : (stop.box.page == start.box.page) with
        | true => simp [r.between_of_eq l start (some stop), hpage]
        | false => simp [r.between_of_ne l hpage, hpage]

/-- What is said of a region tells why it is skipped. -/
theorem Region.mem_warnings_find? (l : Layout Float) (found : FoundAnchors Float) (r : Region)
    (w : String) :
    w ∈ (r.find? l found).trace.warnings ↔
      (w = r.missingText ∧ r.MissesAnchor found) ∨ (w = r.crossingText ∧ r.Crosses found) := by
  unfold find? MissesAnchor Crosses stop?
  simp only
  cases Members.get? found r.startAnchor with
  | none => simp [r.warnings_skip]
  | some start =>
    cases hopen : r.isOpen with
    | true => simp [r.between_of_eq l start none]
    | false =>
      cases Members.get? found r.endAnchor with
      | none => simp [r.warnings_skip]
      | some stop =>
        cases hpage : (stop.box.page == start.box.page) with
        | true => simp [r.between_of_eq l start (some stop), hpage]
        | false => simp [r.between_of_ne l hpage, hpage]

/-- A region resolves, misses an anchor, or has its anchors on different pages. -/
theorem Region.resolves_or (found : FoundAnchors Float) (r : Region) :
    r.Resolves found ∨ r.MissesAnchor found ∨ r.Crosses found := by
  unfold Resolves MissesAnchor Crosses
  cases Members.get? found r.startAnchor with
  | none => simp
  | some start =>
    cases hopen : r.isOpen with
    | true => simp
    | false =>
      cases Members.get? found r.endAnchor with
      | none => simp
      | some stop => cases hpage : (stop.box.page == start.box.page) <;> simp [hpage]

theorem Region.Crosses.not_resolves {r : Region} (h : r.Crosses found) : ¬ r.Resolves found := by
  obtain ⟨hopen, start, stop, hstart, hstop, hpage⟩ := h
  rintro ⟨start', hstart', hopen' | ⟨stop', hstop', hpage'⟩⟩
  · exact Bool.false_ne_true (hopen.symm.trans hopen')
  · cases hstart.symm.trans hstart'
    cases hstop.symm.trans hstop'
    exact Bool.false_ne_true (hpage.symm.trans hpage')

/-! ### The words -/

theorem Region.missingText_inj {r r' : Region} (h : r.missingText = r'.missingText) :
    r.name = r'.name := by
  have hlist := congrArg String.toList h
  simpa [missingText, toString, String.toList_inj] using hlist

theorem Region.crossingText_inj {r r' : Region} (h : r.crossingText = r'.crossingText) :
    r.name = r'.name := by
  have hlist := congrArg String.toList h
  simpa [crossingText, toString, String.toList_inj] using hlist

/-- The two reasons are told apart by how the warning ends. -/
theorem Region.missingText_ne_crossingText (r r' : Region) : r.missingText ≠ r'.crossingText := by
  intro h
  have hlast := congrArg (fun w => w.toList.reverse.head?) h
  simp [missingText, crossingText, toString] at hlast

/-! ### All regions -/

/-- The regions after one more, if it is not skipped. -/
def FoundRegions.add (so : FoundRegions Float) (name : String) :
    Option (List (Block Float)) → FoundRegions Float
  | some blocks => Members.put so name blocks
  | none => so

theorem FoundRegions.get?_add (so : FoundRegions Float) (name key : String)
    (blocks : Option (List (Block Float))) :
    Members.get? (so.add name blocks) key =
      if name = key then blocks.or (Members.get? so key) else Members.get? so key := by
  cases blocks with
  | some blocks => simp [add, Members.get?_put]
  | none => simp [add]

theorem findRegionsFrom_cons (l : Layout Float) (so : FoundRegions Float) (r : Region)
    (rs : List Region) :
    findRegionsFrom l found so (r :: rs) =
      (r.find? l found >>= fun blocks => findRegionsFrom l found (so.add r.name blocks) rs) := by
  rw [findRegionsFrom]
  refine congrArg (r.find? l found >>= ·) (funext fun blocks => ?_)
  cases blocks with
  | some blocks => rfl
  | none => rfl

/-- The regions that are found are those that resolve. -/
theorem has_findRegions (l : Layout Float) (found : FoundAnchors Float) (rs : List Region)
    (name : String) :
    Members.has (findRegions l found rs).value name = true ↔
      ∃ r ∈ rs, r.name = name ∧ r.Resolves found := by
  suffices hfrom : ∀ so, Members.has (findRegionsFrom l found so rs).value name = true ↔
      Members.has so name = true ∨ ∃ r ∈ rs, r.name = name ∧ r.Resolves found by
    rw [findRegions, hfrom]
    exact or_iff_right (by simp [Members.has, Members.get?])
  induction rs with
  | nil => simp [findRegionsFrom]
  | cons r rs ih =>
    intro so
    have hadd : Members.has (so.add r.name (r.find? l found).value) name = true ↔
        Members.has so name = true ∨ (r.name = name ∧ r.Resolves found) := by
      rw [Members.has, FoundRegions.get?_add, ← r.isSome_find? l found, Members.has]
      by_cases hname : r.name = name
      · rw [if_pos hname, Option.isSome_or, Bool.or_eq_true, and_iff_right hname, or_comm]
      · rw [if_neg hname]
        exact (or_iff_left fun h => hname h.1).symm
    rw [findRegionsFrom_cons, Trace.value_bind, ih, hadd, or_assoc]
    simp only [List.mem_cons, exists_eq_or_imp]

theorem mem_warnings_findRegions (l : Layout Float) (found : FoundAnchors Float)
    (rs : List Region) (w : String) :
    w ∈ (findRegions l found rs).trace.warnings ↔
      ∃ r ∈ rs, (w = r.missingText ∧ r.MissesAnchor found) ∨
        (w = r.crossingText ∧ r.Crosses found) := by
  suffices hfrom : ∀ so, w ∈ (findRegionsFrom l found so rs).trace.warnings ↔
      ∃ r ∈ rs, (w = r.missingText ∧ r.MissesAnchor found) ∨
        (w = r.crossingText ∧ r.Crosses found) from hfrom []
  induction rs with
  | nil => simp [findRegionsFrom]
  | cons r rs ih =>
    intro so
    rw [findRegionsFrom_cons, Trace.warnings_bind, List.mem_append, ih, r.mem_warnings_find?]
    simp only [List.mem_cons, exists_eq_or_imp]

section

variable {rs : List Region} (hnames : (rs.map (·.name)).Nodup) {r : Region} (hr : r ∈ rs)

include hnames hr

/-- A region is said to miss an anchor if and only if it does. -/
theorem missingText_mem_iff :
    r.missingText ∈ (findRegions l found rs).trace.warnings ↔ r.MissesAnchor found := by
  rw [mem_warnings_findRegions]
  constructor
  · rintro ⟨r', hr', ⟨hw, hmisses⟩ | ⟨hw, -⟩⟩
    · cases List.inj_on_of_nodup_map hnames hr hr' (Region.missingText_inj hw)
      exact hmisses
    · exact (r.missingText_ne_crossingText r' hw).elim
  · exact fun hmisses => ⟨r, hr, .inl ⟨rfl, hmisses⟩⟩

/-- A region is said to have its anchors on different pages if and only if it has. -/
theorem crossingText_mem_iff :
    r.crossingText ∈ (findRegions l found rs).trace.warnings ↔ r.Crosses found := by
  rw [mem_warnings_findRegions]
  constructor
  · rintro ⟨r', hr', ⟨hw, -⟩ | ⟨hw, hcrosses⟩⟩
    · exact (r'.missingText_ne_crossingText r hw.symm).elim
    · cases List.inj_on_of_nodup_map hnames hr hr' (Region.crossingText_inj hw)
      exact hcrosses
  · exact fun hcrosses => ⟨r, hr, .inr ⟨rfl, hcrosses⟩⟩

/-- A region is found if and only if it resolves. -/
theorem has_findRegions_name : Members.has (findRegions l found rs).value r.name = true ↔
    r.Resolves found := by
  rw [has_findRegions]
  constructor
  · rintro ⟨r', hr', hname, hresolves⟩
    exact List.inj_on_of_nodup_map hnames hr' hr hname ▸ hresolves
  · exact fun hresolves => ⟨r, hr, rfl, hresolves⟩

end

end PageExtract
