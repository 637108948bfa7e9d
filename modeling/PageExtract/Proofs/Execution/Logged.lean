/-
Warnings in the log.

A problem that does not stop a run is reported twice: as a warning of the result, and as an event of
level `warn` whose entry in the log has the warning as its message. The two records are the same: no
warning is without its entry, and the only event of that level without a warning is the one about a
required anchor that is missing, after which there is no result.

* `warnEntries`, `Traced.Logged` — the entries of level `warn`, and a computation whose warnings are
  their messages; both survive being run after one another;
* `logged_findAnchors`, `logged_findRegions`, `logged_extractFields`, `logged_runCalculations`,
  `logged_validate` — the parts of a run;
* `execute_logged` — a run with a result.
-/
import PageExtract.Proofs.Execution.Outcome
import PageExtract.Proofs.Value.Members

namespace PageExtract

/-- The entries that the events of level `warn` are in a log with a context. -/
def warnEntries (base : LogContext) (events : List LogEvent) : List LogContext :=
  (events.filter fun e => e.level = .warn).map (LogEvent.entry base)

theorem warnEntries_append (base : LogContext) (es later : List LogEvent) :
    warnEntries base (es ++ later) = warnEntries base es ++ warnEntries base later := by
  rw [warnEntries, List.filter_append, List.map_append]
  rfl

/-- Whether the warnings of a computation are, in order, the messages of its entries of level
`warn`, in a log with any context. -/
def Traced.Logged {α : Type} (x : Traced α) : Prop :=
  ∀ base, (warnEntries base x.trace.events).map (fun entry => Members.get? entry "message") =
    x.trace.warnings.map fun w => some (some (.str w))

section

variable {α β : Type}

theorem logged_pure (a : α) : (pure a : Traced α).Logged := fun _ => rfl

/-- An event of another level is no warning. -/
theorem logged_note {level : LogLevel} (h : level ≠ .warn) (name : String) (context : LogContext) :
    (note level name context).Logged := by
  intro base
  have hnone : warnEntries base (note level name context).trace.events = [] := by
    simp [warnEntries, note, h]
  rw [hnone]
  rfl

theorem logged_degrade (name message : String) (context : LogContext) :
    (degrade name message context).Logged := by
  intro base
  -- The message is added to the context last, so that no member before it counts.
  exact congrArg (fun v => [v]) (Members.get?_merge_concat _ _ "message" _)

theorem Traced.Logged.bind_value {x : Traced α} {f : α → Traced β} (hx : x.Logged)
    (hf : (f x.value).Logged) : (x >>= f).Logged := by
  intro base
  rw [Trace.events_bind, warnEntries_append, List.map_append, hx base, hf base,
    Trace.warnings_bind, List.map_append]

theorem Traced.Logged.bind {x : Traced α} {f : α → Traced β} (hx : x.Logged)
    (hf : ∀ a, (f a).Logged) : (x >>= f).Logged :=
  hx.bind_value (hf x.value)

end

/-! ### Anchors and regions -/

section

variable (l : Layout Float) (s : Settings Float)

theorem Anchor.logged_directMatches (a : Anchor) (pattern : String) :
    (a.directMatches l pattern).Logged := by
  unfold Anchor.directMatches
  split
  · exact logged_pure _
  · exact logged_pure _
  · split
    · exact logged_pure _
    · exact (logged_degrade _ _ _).bind fun _ => logged_pure _

theorem Anchor.logged_candidates (a : Anchor) (pattern : String) :
    (a.candidates l s pattern).Logged := by
  refine (a.logged_directMatches l pattern).bind fun direct => ?_
  split
  · simp only
    split
    · exact logged_pure _
    · exact (logged_note (by decide) _ _).bind fun _ => logged_pure _
  · exact logged_pure _

theorem Anchor.logged_find? (a : Anchor) : (a.find? l s).Logged := by
  have hby : ∀ patterns, (a.findBy? l s patterns).Logged := by
    intro patterns
    induction patterns with
    | nil => exact logged_pure _
    | cons pattern patterns ih =>
      refine (a.logged_candidates l s pattern).bind fun bs => ?_
      split
      · exact logged_pure _
      · exact ih
  exact hby a.patterns

/-- What becomes of an anchor is logged like a warning only if the anchor is not required. -/
theorem Anchor.logged_report (a : Anchor) {b : Option (Block Float)}
    (h : a.required = true → b.isSome = true) : (a.report b).Logged := by
  cases b with
  | some b => exact logged_note (by decide) _ _
  | none =>
    have hoptional : ¬ a.required = true := fun hrequired => by cases h hrequired
    rw [Anchor.report, if_neg hoptional]
    exact logged_degrade _ _ _

theorem logged_searchAnchors {anchors : List Anchor}
    (hall : ∀ a ∈ anchors, a.required = true → a.resolves l s = true) (search : AnchorSearch) :
    (searchAnchors l s search anchors).Logged := by
  induction anchors generalizing search with
  | nil => exact logged_pure _
  | cons a anchors ih =>
    obtain ⟨ha, hall⟩ := List.forall_mem_cons.1 hall
    have hreport : (a.report (a.find? l s).value).Logged := by
      refine a.logged_report fun hrequired => ?_
      rw [a.isSome_find?]
      exact ha hrequired
    exact (a.logged_find? l s).bind_value (hreport.bind fun _ => ih hall _)

/-- The search for anchors, if it misses none that is required. -/
theorem logged_findAnchors {anchors : List Anchor} {found : FoundAnchors Float}
    (hfound : (findAnchors l s anchors).value = .ok found) : (findAnchors l s anchors).Logged := by
  have hsearch := logged_searchAnchors l s
    (fun a ha hrequired => resolves_of_findAnchors l s hfound ha hrequired) ⟨[], none⟩
  refine hsearch.bind fun search => (logged_note (by decide) _ _).bind fun _ => ?_
  split
  · exact logged_pure _
  · exact logged_pure _

theorem Region.logged_find? (found : FoundAnchors Float) (r : Region) : (r.find? l found).Logged := by
  have hbetween : ∀ start stop, (r.between l start stop).Logged := by
    intro start stop
    unfold Region.between
    split
    · exact (logged_degrade _ _ _).bind fun _ => logged_pure _
    · exact (logged_note (by decide) _ _).bind fun _ => logged_pure _
  have hskip : ∀ start stop, (r.skip start stop).Logged := by
    intro start stop
    exact (logged_degrade _ _ _).bind fun _ => logged_pure _
  unfold Region.find?
  simp only
  split
  · split
    · exact hbetween _ _
    · exact hskip _ _
  · exact hskip _ _

theorem logged_findRegions (found : FoundAnchors Float) (regions : List Region) :
    (findRegions l found regions).Logged := by
  have hfrom : ∀ so, (findRegionsFrom l found so regions).Logged := by
    induction regions with
    | nil =>
      intro so
      exact logged_pure _
    | cons r rs ih =>
      intro so
      refine (r.logged_find? l found).bind fun blocks => ?_
      cases blocks with
      | some blocks => exact ih _
      | none => exact ih so
  exact hfrom []

end

/-! ### Fields -/

theorem logged_reportReplaced (field : String) (rs : List Replaced) :
    (reportReplaced field rs).Logged := by
  induction rs with
  | nil => exact logged_pure _
  | cons r rs ih => exact (logged_degrade _ _ _).bind fun _ => ih

namespace Extraction

theorem logged_columnOf (e : Extraction) (p : Processor) (t : Table Float) (declared : Nat) :
    (e.columnOf p t declared).Logged := by
  unfold columnOf
  split
  · exact logged_pure _
  · split
    · split
      · exact (logged_note (by decide) _ _).bind fun _ => logged_pure _
      · exact logged_pure _
    · exact (logged_note (by decide) _ _).bind fun _ => logged_pure _

theorem logged_extract (e : Extraction) (input : ExtractionInput) : (e.extract input).Logged := by
  have hcolumn : ∀ region blocks declared, (e.column input region blocks declared).Logged := by
    intro region blocks declared
    refine (e.logged_columnOf _ _ _).bind fun index => ?_
    split
    · exact logged_pure _
    · exact (logged_degrade _ _ _).bind fun _ => logged_pure _
  have hsource : ∀ source, (e.ofSource input source).Logged := by
    intro source
    cases source with
    | literal value => exact logged_pure _
    | anchorText anchor => exact logged_pure _
    | anchorNext anchor => exact logged_pure _
    | anchorRight anchor index => exact logged_pure _
    | regionText region =>
      simp only [ofSource]
      cases regionBlocks input region with
      | nil => exact logged_pure _
      | cons b bs => exact logged_pure _
    | regionRows region =>
      simp only [ofSource]
      cases regionBlocks input region with
      | nil => exact logged_pure _
      | cons b bs => exact logged_pure _
    | regionColumn region declared =>
      simp only [ofSource]
      cases regionBlocks input region with
      | nil => exact logged_pure _
      | cons b bs => exact hcolumn _ _ _
  have hraw : (e.raw input).Logged := by
    unfold raw
    split
    · exact hsource _
    · exact (logged_degrade _ _ _).bind fun _ => logged_pure _
  exact hraw.bind fun _ => logged_pure _

theorem logged_store (e : Extraction) (tree : Record Float) (value : Option (Extracted Float)) :
    (e.store tree value).Logged := by
  have hmismatch : ∀ m, (e.reportMismatch m).Logged := by
    intro m
    cases m with
    | none => exact logged_pure _
    | some m => exact logged_degrade _ _ _
  cases value with
  | none => exact (logged_degrade _ _ _).bind fun _ => logged_pure _
  | some value =>
    unfold store
    simp only
    split
    · exact logged_pure _
    · refine (hmismatch _).bind fun _ => ?_
      exact (logged_reportReplaced _ _).bind fun _ => logged_pure _

end Extraction

theorem logged_extractFields (input : ExtractionInput) (tree : Record Float)
    (es : List Extraction) : (extractFields input tree es).Logged := by
  induction es generalizing tree with
  | nil => exact logged_pure _
  | cons e es ih =>
    refine (e.logged_extract input).bind fun value => (e.logged_store tree value).bind fun r => ?_
    cases r with
    | ok tree' => exact ih tree'
    | error error => exact logged_pure _

/-! ### Calculations and rules -/

theorem Calculation.logged_run (c : Calculation) (tree : Record Float) : (c.run tree).Logged := by
  have hremarks : ∀ remarks, (c.reportRemarks remarks).Logged := by
    intro remarks
    induction remarks with
    | nil => exact logged_pure _
    | cons remark remarks ih => exact (logged_degrade _ _ _).bind fun _ => ih
  have hstore : ∀ path result, (c.store tree path result).Logged := by
    intro path result
    refine (logged_reportReplaced _ _).bind fun _ => ?_
    exact (logged_note (by decide) _ _).bind fun _ => logged_pure _
  unfold Calculation.run
  split
  · exact (logged_degrade _ _ _).bind fun _ => logged_pure _
  · refine (hremarks _).bind fun _ => ?_
    split
    · split
      · exact (hstore _ _).bind fun _ => logged_pure _
      · exact logged_pure _
    · exact (logged_degrade _ _ _).bind fun _ => logged_pure _

theorem logged_runCalculations (tree : Record Float) (cs : List Calculation) :
    (runCalculations tree cs).Logged := by
  induction cs generalizing tree with
  | nil => exact logged_pure _
  | cons c cs ih =>
    refine (c.logged_run tree).bind fun outcome => ?_
    cases outcome with
    | ok tree' => exact ih tree'
    | error e => exact logged_pure _

/-- A rule that fails is logged on another level, and is not a warning of the run. -/
theorem logged_validate (data : Members (Value Float)) (vs : List Validation) :
    (validate data vs).Logged ∧ (validate data vs).trace.warnings = [] := by
  have hfrom : ∀ report, (validateFrom data report vs).Logged ∧
      (validateFrom data report vs).trace.warnings = [] := by
    induction vs with
    | nil =>
      intro report
      exact ⟨logged_pure _, rfl⟩
    | cons v vs ih =>
      intro report
      rw [validateFrom]
      cases v.failure? data with
      | none => exact ih report
      | some failure =>
        obtain ⟨hlogged, hnone⟩ := ih (report.add v.severity failure)
        exact ⟨(logged_note (by decide) _ _).bind fun _ => hlogged, hnone⟩
  exact hfrom ⟨[], []⟩

/-! ### Runs -/

section

variable {p : Processor} {l : Layout Float} {s : Settings Float} {found : FoundAnchors Float}

theorem Processor.logged_fill (p : Processor) (input : ExtractionInput) :
    (p.fill input).Logged := by
  refine (logged_extractFields input [] p.extractions).bind fun filled => ?_
  cases filled with
  | ok tree => exact logged_runCalculations tree p.calculations
  | error error => exact logged_pure _

theorem Processor.logged_collect (hfound : (findAnchors l s p.anchors).value = .ok found) :
    (p.collect l s).Logged := by
  have hgather : (p.gather l s found).Logged := by
    refine (logged_findRegions l found p.regions).bind fun regions => ?_
    refine (p.logged_fill _).bind fun filled => ?_
    cases filled with
    | ok tree => exact logged_pure _
    | error error => exact logged_pure _
  refine (logged_note (by decide) _ _).bind fun _ => ?_
  refine (logged_findAnchors l s hfound).bind_value ?_
  rw [hfound]
  refine hgather.bind fun outcome => ?_
  cases outcome with
  | ok both => exact logged_pure _
  | error error => exact logged_pure _

end

/-- The warnings of a result are, in order, the messages of the entries of level `warn` that the run
leaves in a log, and that log has no other entries of the level. -/
theorem execute_logged {s : Settings Float} {l : Layout Float} {p : Processor} {result : Execution}
    (hrun : (execute s l p).value = .ok result) (base : LogContext) :
    (warnEntries base (execute s l p).trace.events).map
        (fun entry => Members.get? entry "message") =
      result.warnings.map fun w => some (some (.str w)) := by
  obtain ⟨found, tree, hfound, htree, rfl⟩ := exists_of_execute_eq_ok hrun
  have hcollected : (p.collect l s).value =
      .ok (found, (p.inputFor l s found).regions, tree.toMembers) := by
    rw [Processor.value_collect, hfound]
    simp only [htree]
  obtain ⟨hvalidate, hquiet⟩ := logged_validate tree.toMembers p.validations
  have hlogged : (execute s l p).Logged := by
    refine (Processor.logged_collect hfound).bind_value ?_
    rw [hcollected]
    exact hvalidate.bind fun _ => (logged_note (by decide) _ _).bind fun _ => logged_pure _
  have hwarnings : (execute s l p).trace.warnings = (p.collect l s).trace.warnings := by
    rw [execute, Trace.warnings_bind, hcollected]
    simp only [Trace.warnings_bind, hquiet]
    exact List.append_nil _
  rw [hlogged base, hwarnings]
  rfl

/-- Without a price the invoice has two warnings, and in a log whose context has a message of its own
there are two entries with theirs. -/
theorem execute_logged_invoice :
    ∃ result, (execute .standard (onePage [totalBlock]) invoice).value = .ok result ∧
      result.warnings = ["Field 'items[].price' extracted no value",
        "Calculation 'sum': sum(items[].price): 'items' not found, using 0"] ∧
      (warnEntries [logText "message" "started"]
          (execute .standard (onePage [totalBlock]) invoice).trace.events).map
          (fun entry => Members.get? entry "message") =
        [some (some (.str "Field 'items[].price' extracted no value")),
          some (some (.str "Calculation 'sum': sum(items[].price): 'items' not found, using 0"))] := by
  have hwarned : (execute .standard (onePage [totalBlock]) invoice).value.toOption.map
      (·.warnings) = some ["Field 'items[].price' extracted no value",
        "Calculation 'sum': sum(items[].price): 'items' not found, using 0"] := by
    decide +kernel
  cases hrun : (execute .standard (onePage [totalBlock]) invoice).value with
  | error error =>
    rw [hrun] at hwarned
    cases hwarned
  | ok result =>
    rw [hrun] at hwarned
    have hw : result.warnings = _ := Option.some_inj.1 hwarned
    have hlogged := execute_logged hrun [logText "message" "started"]
    rw [hw] at hlogged
    exact ⟨result, rfl, hw, hlogged⟩

end PageExtract
