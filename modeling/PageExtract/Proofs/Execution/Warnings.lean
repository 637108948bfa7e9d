/-
What the warnings of a run are about.

Warnings about anchors, regions, fields and calculations begin with different letters. A warning
about a field begins with the title of the field; as no field path has a quotation mark, the title
tells fields apart.

* `Traced.Warns` — every warning of a computation has a property;
* `Begins` — the letter that a warning begins with;
* `warns_findAnchors`, `warns_findRegions`, `warns_runCalculations` — warnings by their letters;
* `Extraction.Titles`, `Extraction.fieldPath_eq_of_titles` — the title that a warning begins with;
* `Extraction.warns_extract`, `Extraction.warns_store`, `warns_extractFields` — the warnings about
  fields;
* `Processor.warns_collect` — where the warnings of a run come from.
-/
import PageExtract.Proofs.Execution.Steps
import PageExtract.Proofs.Record.Spelling

namespace PageExtract

/-- Whether every warning of a computation has a property. -/
def Traced.Warns {α : Type} (P : String → Prop) (x : Traced α) : Prop :=
  ∀ w ∈ x.trace.warnings, P w

section

variable {α β : Type} {P : String → Prop}

theorem warns_pure (a : α) : (pure a : Traced α).Warns P :=
  fun _ hw => (List.not_mem_nil hw).elim

theorem warns_note (level : LogLevel) (name : String) (context : LogContext) :
    (note level name context).Warns P :=
  fun _ hw => (List.not_mem_nil hw).elim

theorem warns_degrade {message : String} (h : P message) (name : String) (context : LogContext) :
    (degrade name message context).Warns P := by
  intro w hw
  rw [List.mem_singleton.1 hw]
  exact h

theorem Traced.Warns.bind_value {x : Traced α} {f : α → Traced β} (hx : x.Warns P)
    (hf : (f x.value).Warns P) : (x >>= f).Warns P := by
  intro w hw
  rcases List.mem_append.1 hw with hw | hw
  · exact hx w hw
  · exact hf w hw

theorem Traced.Warns.bind {x : Traced α} {f : α → Traced β} (hx : x.Warns P)
    (hf : ∀ a, (f a).Warns P) : (x >>= f).Warns P :=
  hx.bind_value (hf x.value)

theorem Traced.Warns.mono {Q : String → Prop} {x : Traced α} (hx : x.Warns P)
    (h : ∀ w, P w → Q w) : x.Warns Q :=
  fun w hw => h w (hx w hw)

end

/-- Whether a warning begins with a letter. -/
def Begins (c : Char) (w : String) : Prop := w.toList.head? = some c

theorem Begins.unique {w : String} {c d : Char} (h : Begins c w) (h' : Begins d w) : c = d :=
  Option.some_inj.1 (h.symm.trans h')

/-- Whether a warning begins like those about anchors. -/
def AboutAnchor (w : String) : Prop := Begins 'A' w ∨ Begins 'O' w

/-- Whether a warning begins like those about fields. -/
def AboutField (w : String) : Prop := w.toList.head? = some 'F'

/-- A warning that begins with another letter is not about a field. -/
theorem not_aboutField {w : String} {c : Char} (h : Begins c w) (hc : c ≠ 'F') :
    ¬ AboutField w :=
  fun hfield => hc (h.unique hfield)

theorem AboutAnchor.not_aboutField {w : String} (h : AboutAnchor w) : ¬ AboutField w := by
  rcases h with h | h
  · exact PageExtract.not_aboutField h (by decide)
  · exact PageExtract.not_aboutField h (by decide)

/-! ### Anchors and regions -/

theorem Anchor.warns_directMatches (l : Layout Float) (a : Anchor) (pattern : String) :
    (a.directMatches l pattern).Warns (Begins 'A') := by
  unfold Anchor.directMatches
  split
  · exact warns_pure _
  · exact warns_pure _
  · split
    · exact warns_pure _
    · refine (warns_degrade ?_ _ _).bind fun _ => warns_pure _
      simp [Begins, toString]

theorem Anchor.warns_candidates (l : Layout Float) (s : Settings Float) (a : Anchor)
    (pattern : String) : (a.candidates l s pattern).Warns (Begins 'A') := by
  refine (a.warns_directMatches l pattern).bind fun direct => ?_
  split
  · simp only
    split
    · exact warns_pure _
    · exact (warns_note _ _ _).bind fun _ => warns_pure _
  · exact warns_pure _

/-- All warnings of the search for one anchor begin with an `A`. -/
theorem Anchor.warns_findBy? (l : Layout Float) (s : Settings Float) (a : Anchor)
    (patterns : List String) : (a.findBy? l s patterns).Warns (Begins 'A') := by
  induction patterns with
  | nil => exact warns_pure _
  | cons pattern patterns ih =>
    refine (a.warns_candidates l s pattern).bind fun bs => ?_
    split
    · exact warns_pure _
    · exact ih

theorem Anchor.warns_report (a : Anchor) (b : Option (Block Float)) :
    (a.report b).Warns AboutAnchor := by
  unfold Anchor.report
  split
  · exact warns_note _ _ _
  · split
    · exact warns_note _ _ _
    · exact warns_degrade (.inr (by simp [Begins, toString])) _ _

theorem warns_searchAnchors (l : Layout Float) (s : Settings Float) (search : AnchorSearch)
    (anchors : List Anchor) : (searchAnchors l s search anchors).Warns AboutAnchor := by
  induction anchors generalizing search with
  | nil => exact warns_pure _
  | cons a anchors ih =>
    have hfind := (a.warns_findBy? l s a.patterns).mono fun w hw => (.inl hw : AboutAnchor w)
    refine hfind.bind fun b => ?_
    exact (a.warns_report b).bind fun _ => ih (search.add a b)

/-- All warnings of the search for anchors are about anchors. -/
theorem warns_findAnchors (l : Layout Float) (s : Settings Float) (anchors : List Anchor) :
    (findAnchors l s anchors).Warns AboutAnchor := by
  refine (warns_searchAnchors l s _ anchors).bind fun search => ?_
  refine (warns_note _ _ _).bind fun _ => ?_
  split
  · exact warns_pure _
  · exact warns_pure _

theorem Region.warns_find? (l : Layout Float) (found : FoundAnchors Float) (r : Region) :
    (r.find? l found).Warns (Begins 'R') := by
  have hbetween : ∀ start stop, (r.between l start stop).Warns (Begins 'R') := by
    intro start stop
    unfold Region.between
    split
    · refine (warns_degrade ?_ _ _).bind fun _ => warns_pure _
      simp [Begins, toString]
    · exact (warns_note _ _ _).bind fun _ => warns_pure _
  have hskip : ∀ start stop, (r.skip start stop).Warns (Begins 'R') := by
    intro start stop
    refine (warns_degrade ?_ _ _).bind fun _ => warns_pure _
    simp [Begins, toString]
  unfold Region.find?
  simp only
  split
  · split
    · exact hbetween _ _
    · exact hskip _ _
  · exact hskip _ _

/-- All warnings of the search for regions begin with an `R`. -/
theorem warns_findRegions (l : Layout Float) (found : FoundAnchors Float)
    (regions : List Region) : (findRegions l found regions).Warns (Begins 'R') := by
  have hfrom : ∀ so, (findRegionsFrom l found so regions).Warns (Begins 'R') := by
    induction regions with
    | nil => exact fun so => warns_pure _
    | cons r rs ih =>
      refine fun so => (r.warns_find? l found).bind fun blocks => ?_
      cases blocks with
      | some blocks => exact ih _
      | none => exact ih so
  exact hfrom []

/-! ### Calculations -/

theorem warns_reportReplaced {P : String → Prop} {field : String}
    (h : ∀ more, P (field ++ more)) (rs : List Replaced) : (reportReplaced field rs).Warns P := by
  induction rs with
  | nil => exact warns_pure _
  | cons r rs ih =>
    refine (warns_degrade ?_ _ _).bind fun _ => ih
    simpa [toString, String.append_assoc] using h _

theorem Calculation.begins_title (c : Calculation) (more : String) :
    Begins 'C' (c.title ++ more) := by
  simp [Begins, Calculation.title, toString]

theorem Calculation.warns_run (c : Calculation) (tree : Record Float) :
    (c.run tree).Warns (Begins 'C') := by
  have hremarks : ∀ remarks, (c.reportRemarks remarks).Warns (Begins 'C') := by
    intro remarks
    induction remarks with
    | nil => exact warns_pure _
    | cons remark remarks ih =>
      refine (warns_degrade ?_ _ _).bind fun _ => ih
      simp [Begins, Calculation.title, toString]
  have hstore : ∀ path result, (c.store tree path result).Warns (Begins 'C') := by
    intro path result
    refine (warns_reportReplaced c.begins_title _).bind fun _ => ?_
    exact (warns_note _ _ _).bind fun _ => warns_pure _
  unfold Calculation.run
  split
  · refine (warns_degrade ?_ _ _).bind fun _ => warns_pure _
    simp [Begins, Calculation.title, toString]
  · refine (hremarks _).bind fun _ => ?_
    split
    · split
      · exact (hstore _ _).bind fun _ => warns_pure _
      · exact warns_pure _
    · refine (warns_degrade ?_ _ _).bind fun _ => warns_pure _
      simp [Begins, Calculation.title, toString]

/-- All warnings of calculations begin with a `C`. -/
theorem warns_runCalculations (tree : Record Float) (cs : List Calculation) :
    (runCalculations tree cs).Warns (Begins 'C') := by
  induction cs generalizing tree with
  | nil => exact warns_pure _
  | cons c cs ih =>
    refine (c.warns_run tree).bind fun outcome => ?_
    cases outcome with
    | ok tree' => exact ih tree'
    | error e => exact warns_pure _

/-! ### Fields -/

namespace Extraction

/-- Whether a warning begins with the title of a field. -/
def Titles (e : Extraction) (w : String) : Prop := e.title.toList <+: w.toList

theorem titles_append (e : Extraction) (more : String) : e.Titles (e.title ++ more) := by
  rw [Titles, String.toList_append]
  exact List.prefix_append _ _

theorem Titles.aboutField {e : Extraction} {w : String} (h : e.Titles w) : AboutField w := by
  obtain ⟨more, hw⟩ := h
  rw [AboutField, ← hw]
  simp [title, toString]

theorem toList_title (e : Extraction) :
    e.title.toList = "Field '".toList ++ (e.fieldPath.toList ++ ['\'']) := by
  simp [title, toString]

/-- What stands before the first quotation mark is read back. -/
theorem takeWhile_unquoted {cs : List Char} (h : '\'' ∉ cs) (more : List Char) :
    (cs ++ '\'' :: more).takeWhile (· != '\'') = cs := by
  have hall : ∀ c ∈ cs, (c != '\'') = true := by
    intro c hc
    rw [bne_iff_ne]
    rintro rfl
    exact h hc
  rw [List.takeWhile_append_of_pos hall]
  simp

/-- A warning begins with the title of one field only. -/
theorem fieldPath_eq_of_titles {e e' : Extraction} {w : String} (h : e.Titles w) (h' : e'.Titles w)
    (he : '\'' ∉ e.fieldPath.toList) (he' : '\'' ∉ e'.fieldPath.toList) :
    e.fieldPath = e'.fieldPath := by
  obtain ⟨more, hw⟩ := h
  obtain ⟨more', hw'⟩ := h'
  rw [toList_title, List.append_assoc] at hw hw'
  -- Both titles begin the same text, and a path ends at the first quotation mark after "Field '".
  have hrest := List.append_cancel_left (hw.trans hw'.symm)
  rw [List.append_assoc, List.append_assoc] at hrest
  have hpath := congrArg (List.takeWhile (· != '\'')) hrest
  rw [List.singleton_append, List.singleton_append, takeWhile_unquoted he,
    takeWhile_unquoted he'] at hpath
  exact String.toList_inj.1 hpath

theorem warns_columnOf {P : String → Prop} (e : Extraction) (p : Processor) (t : Table Float)
    (declared : Nat) : (e.columnOf p t declared).Warns P := by
  unfold columnOf
  split
  · exact warns_pure _
  · split
    · split
      · exact (warns_note _ _ _).bind fun _ => warns_pure _
      · exact warns_pure _
    · exact (warns_note _ _ _).bind fun _ => warns_pure _

/-- What is said when a field is extracted is about the field. -/
theorem warns_extract (e : Extraction) (input : ExtractionInput) :
    (e.extract input).Warns e.Titles := by
  have hcolumn : ∀ region blocks declared,
      (e.column input region blocks declared).Warns e.Titles := by
    intro region blocks declared
    refine (e.warns_columnOf _ _ _).bind fun index => ?_
    split
    · exact warns_pure _
    · refine (warns_degrade ?_ _ _).bind fun _ => warns_pure _
      simp [Titles, title, toString]
  have hsource : ∀ source, (e.ofSource input source).Warns e.Titles := by
    intro source
    unfold ofSource
    split
    · exact warns_pure _
    · exact warns_pure _
    · exact warns_pure _
    · exact warns_pure _
    · split
      · exact warns_pure _
      · exact warns_pure _
    · split
      · exact warns_pure _
      · exact warns_pure _
    · split
      · exact warns_pure _
      · exact hcolumn _ _ _
  have hraw : (e.raw input).Warns e.Titles := by
    unfold raw
    split
    · exact hsource _
    · refine (warns_degrade ?_ _ _).bind fun _ => warns_pure _
      simp [Titles, title, toString]
  exact hraw.bind fun _ => warns_pure _

/-- A list that does not fit is reported as a warning about the field. -/
theorem warns_reportMismatch (e : Extraction) (m : Option Mismatch) :
    (e.reportMismatch m).Warns e.Titles := by
  cases m with
  | none => exact warns_pure _
  | some m =>
    refine warns_degrade ?_ _ _
    simp [Titles, title, toString]

/-- What is said when a field is written is about the field. -/
theorem warns_store (e : Extraction) (tree : Record Float) (value : Option (Extracted Float)) :
    (e.store tree value).Warns e.Titles := by
  cases value with
  | none =>
    refine (warns_degrade ?_ _ _).bind fun _ => warns_pure _
    simp [Titles, title, toString]
  | some value =>
    unfold store
    simp only
    split
    · exact warns_pure _
    · refine (e.warns_reportMismatch _).bind fun _ => ?_
      exact (warns_reportReplaced e.titles_append _).bind fun _ => warns_pure _

end Extraction

/-- All warnings of the extraction of fields are about fields. -/
theorem warns_extractFields (input : ExtractionInput) (tree : Record Float)
    (es : List Extraction) : (extractFields input tree es).Warns AboutField := by
  induction es generalizing tree with
  | nil => exact warns_pure _
  | cons e es ih =>
    refine ((e.warns_extract input).mono fun w => Extraction.Titles.aboutField).bind fun value => ?_
    refine ((e.warns_store tree value).mono fun w => Extraction.Titles.aboutField).bind fun r => ?_
    cases r with
    | ok tree' => exact ih tree'
    | error error => exact warns_pure _

/-! ### Runs -/

/-- The warnings of a run that are about fields come from the extraction of the fields. -/
theorem Processor.warns_collect {P : String → Prop} (hother : ∀ w, ¬ AboutField w → P w)
    {p : Processor} {l : Layout Float} {s : Settings Float} {anchors : FoundAnchors Float}
    (hanchors : (findAnchors l s p.anchors).value = .ok anchors)
    (hfields : (extractFields (p.inputFor l s anchors) [] p.extractions).Warns P) :
    (p.collect l s).Warns P := by
  have hfill : (p.fill (p.inputFor l s anchors)).Warns P := by
    refine hfields.bind fun filled => ?_
    cases filled with
    | ok tree =>
      exact (warns_runCalculations tree p.calculations).mono fun w hw =>
        hother w (not_aboutField hw (by decide))
    | error error => exact warns_pure _
  intro w hw
  rw [Processor.warnings_collect hanchors, List.mem_append, List.mem_append] at hw
  rcases hw with hw | hw | hw
  · exact hother w (warns_findAnchors l s p.anchors w hw).not_aboutField
  · exact hother w (not_aboutField (warns_findRegions l anchors p.regions w hw) (by decide))
  · exact hfill w hw

end PageExtract
