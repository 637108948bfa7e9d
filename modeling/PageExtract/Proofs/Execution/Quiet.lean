/-
Computations that warn of nothing.

The parts of a run are taken one after the other, and for each it is said when it warns of nothing.
Fields and calculations are steps on one tree of records: all of them are quiet if and only if
every single one is, at the moment at which its turn comes.

* `Traced.Quiet` — a computation without warnings;
* `quiet_findAnchors`, `quiet_findRegions` — every anchor resolves, every region resolves;
* `runSteps`, `quiet_runSteps` — steps on a tree, and when all of them are quiet;
* `Extraction.Fits`, `Extraction.quiet_step` — a field that is found and fits where it is written;
* `Calculation.Fits`, `Calculation.quiet_run` — the same for a calculation;
* `quiet_extractFields`, `quiet_runCalculations` — the same for all fields and all calculations.
-/
import PageExtract.Proofs.Execution.Outcome
import PageExtract.Proofs.Record.Sums

namespace PageExtract

/-- Whether a computation warns of nothing. -/
def Traced.Quiet {α : Type} (x : Traced α) : Prop := x.trace.warnings = []

section

variable {α β : Type}

theorem quiet_pure (a : α) : (pure a : Traced α).Quiet := rfl

theorem quiet_note (level : LogLevel) (name : String) (context : LogContext) :
    (note level name context).Quiet := rfl

theorem not_quiet_degrade (name message : String) (context : LogContext) :
    ¬ (degrade name message context).Quiet :=
  List.cons_ne_nil message []

theorem quiet_bind {x : Traced α} {f : α → Traced β} :
    (x >>= f).Quiet ↔ x.Quiet ∧ (f x.value).Quiet :=
  List.append_eq_nil_iff

/-- What begins with a quiet part is quiet if and only if the other part is. -/
theorem quiet_bind_of_quiet {x : Traced α} {f : α → Traced β} (hx : x.Quiet) :
    (x >>= f).Quiet ↔ (f x.value).Quiet := by
  rw [quiet_bind, and_iff_right hx]

theorem not_quiet_bind {x : Traced α} {f : α → Traced β} (hx : ¬ x.Quiet) : ¬ (x >>= f).Quiet :=
  fun h => hx (quiet_bind.1 h).1

end

/-! ### Anchors -/

section

variable (l : Layout Float) (s : Settings Float)

/-- Looking for a pattern is quiet if no pattern of the anchor is a broken regular expression. -/
theorem Anchor.quiet_directMatches {a : Anchor} (ha : a.patternIssues = []) {pattern : String}
    (hpattern : pattern ∈ a.patterns) : (a.directMatches l pattern).Quiet := by
  unfold Anchor.directMatches
  split
  · exact quiet_pure _
  · exact quiet_pure _
  · rename_i hkind
    split
    · exact quiet_pure _
    · rename_i hparse
      exfalso
      unfold Anchor.patternIssues at ha
      rw [if_pos hkind, List.map_eq_nil_iff, List.filter_eq_nil_iff] at ha
      exact ha pattern hpattern (by rw [hparse]; rfl)

theorem Anchor.quiet_candidates {a : Anchor} (ha : a.patternIssues = []) {pattern : String}
    (hpattern : pattern ∈ a.patterns) : (a.candidates l s pattern).Quiet := by
  unfold Anchor.candidates
  rw [quiet_bind_of_quiet (a.quiet_directMatches l ha hpattern)]
  split
  · simp only
    split
    · exact quiet_pure _
    · exact quiet_bind.2 ⟨quiet_note _ _ _, quiet_pure _⟩
  · exact quiet_pure _

theorem Anchor.quiet_find? {a : Anchor} (ha : a.patternIssues = []) : (a.find? l s).Quiet := by
  have hby : ∀ patterns ⊆ a.patterns, (a.findBy? l s patterns).Quiet := by
    intro patterns
    induction patterns with
    | nil => exact fun _ => quiet_pure _
    | cons pattern patterns ih =>
      intro hsub
      rw [Anchor.findBy?,
        quiet_bind_of_quiet (a.quiet_candidates l s ha (hsub List.mem_cons_self))]
      split
      · exact quiet_pure _
      · exact ih fun p hp => hsub (List.mem_cons_of_mem pattern hp)
  exact hby a.patterns fun _ hp => hp

theorem Anchor.quiet_report (a : Anchor) (b : Option (Block Float)) :
    (a.report b).Quiet ↔ a.required = true ∨ b.isSome = true := by
  cases b with
  | some b => exact ⟨fun _ => .inr rfl, fun _ => quiet_note _ _ _⟩
  | none =>
    unfold Anchor.report
    cases a.required with
    | true => exact ⟨fun _ => .inl rfl, fun _ => quiet_note _ _ _⟩
    | false =>
      constructor
      · exact fun h => (not_quiet_degrade _ _ _ h).elim
      · rintro (h | h) <;> cases h

theorem quiet_searchAnchors {anchors : List Anchor} (hall : ∀ a ∈ anchors, a.patternIssues = [])
    (search : AnchorSearch) :
    (searchAnchors l s search anchors).Quiet ↔
      ∀ a ∈ anchors, a.required = true ∨ a.resolves l s = true := by
  induction anchors generalizing search with
  | nil => exact ⟨fun _ a ha => (List.not_mem_nil ha).elim, fun _ => quiet_pure _⟩
  | cons a anchors ih =>
    rw [searchAnchors, quiet_bind_of_quiet (a.quiet_find? l s (hall a List.mem_cons_self)),
      quiet_bind, a.quiet_report, a.isSome_find?,
      ih fun a' ha' => hall a' (List.mem_cons_of_mem a ha'), List.forall_mem_cons]

/-- A search that finds the required anchors is quiet if and only if every anchor resolves. -/
theorem quiet_findAnchors {anchors : List Anchor} (hall : ∀ a ∈ anchors, a.patternIssues = [])
    {found : FoundAnchors Float} (hfound : (findAnchors l s anchors).value = .ok found) :
    (findAnchors l s anchors).Quiet ↔ ∀ a ∈ anchors, a.resolves l s = true := by
  have hquiet : (findAnchors l s anchors).Quiet ↔ (searchAnchors l s ⟨[], none⟩ anchors).Quiet := by
    rw [findAnchors, quiet_bind, quiet_bind_of_quiet (quiet_note _ _ _)]
    refine and_iff_left ?_
    split
    · exact quiet_pure _
    · exact quiet_pure _
  rw [hquiet, quiet_searchAnchors l s hall]
  -- No required anchor is missing, so for each of them the two sides say the same.
  constructor
  · exact fun h a ha => (h a ha).elim (resolves_of_findAnchors l s hfound ha) id
  · exact fun h a ha => .inr (h a ha)

end

/-- No pattern of a processor that was read is a broken regular expression. -/
theorem Processor.patternIssues_of_ofInput {now : String} {v : Option (Value Float)}
    {p : Processor} (hp : Processor.ofInput now v = .ok p) :
    ∀ a ∈ p.anchors, a.patternIssues = [] := by
  intro a ha
  have hpatterns := (Processor.isConsistent_of_ofInput hp).anchorPatterns a ha
  unfold Anchor.patternIssues
  split
  · rename_i hkind
    rw [List.map_eq_nil_iff, List.filter_eq_nil_iff]
    intro s hs hbroken
    have hcompiles := hpatterns hkind s hs
    rw [Option.isNone_iff_eq_none.1 hbroken] at hcompiles
    cases hcompiles
  · rfl

/-! ### Regions -/

/-- Whether the anchors of a region are found, and on one page if there are two. -/
def Region.Resolves (found : FoundAnchors Float) (r : Region) : Prop :=
  ∃ start, Members.get? found r.startAnchor = some start ∧
    (r.isOpen = true ∨ ∃ stop, Members.get? found r.endAnchor = some stop ∧
      (stop.box.page == start.box.page) = true)

theorem Region.not_quiet_skip (r : Region) (start stop : Option (Block Float)) :
    ¬ (r.skip start stop).Quiet :=
  not_quiet_bind (not_quiet_degrade _ _ _)

theorem Region.quiet_between (l : Layout Float) (r : Region) (start : Block Float)
    (stop : Option (Block Float)) :
    (r.between l start stop).Quiet ↔ ∀ b, stop = some b → (b.box.page == start.box.page) = true := by
  unfold Region.between
  split
  · rename_i b hb
    obtain ⟨hstop, hpage⟩ := Option.filter_eq_some_iff.1 hb
    constructor
    · exact fun h => (not_quiet_bind (not_quiet_degrade _ _ _) h).elim
    · intro h
      rw [h b hstop] at hpage
      cases hpage
  · rename_i hnone
    refine ⟨fun _ b hb => ?_, fun _ => quiet_bind.2 ⟨quiet_note _ _ _, quiet_pure _⟩⟩
    subst hb
    simpa using hnone

theorem Region.quiet_find? (l : Layout Float) (found : FoundAnchors Float) (r : Region) :
    (r.find? l found).Quiet ↔ r.Resolves found := by
  unfold Region.find? Region.Resolves Region.stop?
  simp only
  cases Members.get? found r.startAnchor with
  | none => simp [r.not_quiet_skip]
  | some start =>
    cases hopen : r.isOpen with
    | true => simp [r.quiet_between]
    | false =>
      cases Members.get? found r.endAnchor with
      | none => simp [r.not_quiet_skip]
      | some stop => simp [r.quiet_between]

/-- The search for regions is quiet if and only if every region resolves. -/
theorem quiet_findRegions (l : Layout Float) (found : FoundAnchors Float) (regions : List Region) :
    (findRegions l found regions).Quiet ↔ ∀ r ∈ regions, r.Resolves found := by
  have hfrom : ∀ so, (findRegionsFrom l found so regions).Quiet ↔
      ∀ r ∈ regions, r.Resolves found := by
    induction regions with
    | nil => exact fun so => ⟨fun _ r hr => (List.not_mem_nil hr).elim, fun _ => quiet_pure _⟩
    | cons r rs ih =>
      intro so
      rw [findRegionsFrom, quiet_bind, r.quiet_find?, List.forall_mem_cons]
      refine and_congr_right fun _ => ?_
      cases (r.find? l found).value with
      | some blocks => exact ih _
      | none => exact ih so
  exact hfrom []

/-! ### Steps on a tree -/

theorem Traced.bind_assoc {α β γ : Type} (x : Traced α) (f : α → Traced β) (g : β → Traced γ) :
    (x >>= f) >>= g = x >>= fun a => f a >>= g := by
  have htrace : ∀ a b c : Trace, (a ++ b) ++ c = a ++ (b ++ c) := fun a b c => by
    show Trace.mk _ _ = Trace.mk _ _
    congr 1 <;> exact List.append_assoc _ _ _
  exact congrArg (Traced.mk _) (htrace _ _ _)

section

variable {σ : Type}

/-- Steps on a tree, one after the other; they end at the first that meets a text that is no
path. -/
def runSteps (step : Record Float → σ → Traced (Except PathError (Record Float)))
    (tree : Record Float) : List σ → Traced (Except PathError (Record Float))
  | [] => pure (.ok tree)
  | x :: xs => do
    match ← step tree x with
    | .ok tree' => runSteps step tree' xs
    | .error e => return .error e

/-- A property of all ways to cut a list before one of its elements. -/
theorem forall_cons_eq_append_cons {P : List σ → σ → Prop} {x : σ} {xs : List σ} :
    (∀ done y rest, x :: xs = done ++ y :: rest → P done y) ↔
      P [] x ∧ ∀ done y rest, xs = done ++ y :: rest → P (x :: done) y := by
  constructor
  · intro h
    refine ⟨h [] x xs rfl, fun done y rest hxs => h (x :: done) y rest ?_⟩
    rw [hxs, List.cons_append]
  · rintro ⟨hhere, hlater⟩ done y rest hxs
    cases done with
    | nil =>
      cases hxs
      exact hhere
    | cons z done =>
      obtain ⟨rfl, htail⟩ := List.cons.inj hxs
      exact hlater done y rest htail

/-- Steps of which none fails are quiet if and only if each is on the tree that those before it
leave. -/
theorem quiet_runSteps {step : Record Float → σ → Traced (Except PathError (Record Float))}
    {xs : List σ} (hstep : ∀ x ∈ xs, ∀ tree, ∃ tree', (step tree x).value = .ok tree')
    (start : Record Float) :
    (runSteps step start xs).Quiet ↔ ∀ done x rest, xs = done ++ x :: rest →
      ∃ tree, (runSteps step start done).value = .ok tree ∧ (step tree x).Quiet := by
  induction xs generalizing start with
  | nil =>
    refine ⟨fun _ done x rest hxs => ?_, fun _ => quiet_pure _⟩
    exact (List.append_ne_nil_of_right_ne_nil done (List.cons_ne_nil x rest) hxs.symm).elim
  | cons x xs ih =>
    obtain ⟨tree, htree⟩ := hstep x List.mem_cons_self start
    have hrest : ∀ ys, (runSteps step start (x :: ys)).value = (runSteps step tree ys).value := by
      intro ys
      rw [runSteps, Trace.value_bind, htree]
    have hhere : (∃ t, (runSteps step start []).value = .ok t ∧ (step t x).Quiet) ↔
        (step start x).Quiet := by
      constructor
      · rintro ⟨t, ht, hquiet⟩
        cases ht
        exact hquiet
      · exact fun hquiet => ⟨start, rfl, hquiet⟩
    have htail := ih (fun y hy => hstep y (List.mem_cons_of_mem x hy)) tree
    rw [forall_cons_eq_append_cons, hhere, runSteps, quiet_bind, htree]
    simp only [hrest]
    rw [htail]

end

/-! ### Fields -/

/-- Whether a write fitted what was there. -/
def WriteOutcome.Fits (outcome : WriteOutcome) : Prop :=
  outcome.mismatch = none ∧ outcome.replaced = []

theorem quiet_reportReplaced (field : String) (rs : List Replaced) :
    (reportReplaced field rs).Quiet ↔ rs = [] := by
  cases rs with
  | nil => exact ⟨fun _ => rfl, fun _ => quiet_pure _⟩
  | cons r rs =>
    refine ⟨fun h => (not_quiet_bind (not_quiet_degrade _ _ _) h).elim, fun h => ?_⟩
    cases h

namespace Extraction

variable {input : ExtractionInput} {tree : Record Float}

/-- Whether the source of a field is known, leads to a value, and the value fits where it is
written. -/
def Fits (input : ExtractionInput) (tree : Record Float) (e : Extraction) : Prop :=
  (Source.parse? e.source).isSome = true ∧
    ∃ value path, (e.extract input).value = some value ∧ Path.parse e.fieldPath = .ok path ∧
      (Record.write tree path value).2.Fits

/-- One field: its value is extracted and written. -/
def step (input : ExtractionInput) (tree : Record Float) (e : Extraction) :
    Traced (Except PathError (Record Float)) := do
  e.store tree (← e.extract input)

theorem quiet_columnOf (e : Extraction) (p : Processor) (t : Table Float) (declared : Nat) :
    (e.columnOf p t declared).Quiet := by
  unfold columnOf
  split
  · exact quiet_pure _
  · split
    · split
      · exact quiet_bind.2 ⟨quiet_note _ _ _, quiet_pure _⟩
      · exact quiet_pure _
    · exact quiet_bind.2 ⟨quiet_note _ _ _, quiet_pure _⟩

/-- A field that has a value is found without a warning, and its source is known. -/
theorem quiet_extract {e : Extraction} {value : Extracted Float}
    (hvalue : (e.extract input).value = some value) :
    (e.extract input).Quiet ∧ (Source.parse? e.source).isSome = true := by
  have hcolumn : ∀ region blocks declared,
      (e.column input region blocks declared).value.isSome = true →
      (e.column input region blocks declared).Quiet := by
    intro region blocks declared hsome
    unfold column at hsome ⊢
    simp only at hsome ⊢
    rw [Trace.value_bind] at hsome
    rw [quiet_bind_of_quiet (e.quiet_columnOf _ _ _)]
    split
    · exact quiet_pure _
    · rename_i hout
      rw [if_neg hout] at hsome
      cases hsome
  have hsource : ∀ source, (e.ofSource input source).value.isSome = true →
      (e.ofSource input source).Quiet := by
    intro source hsome
    unfold ofSource at hsome ⊢
    cases source with
    | literal _ => exact quiet_pure _
    | anchorText _ => exact quiet_pure _
    | anchorNext _ => exact quiet_pure _
    | anchorRight _ _ => exact quiet_pure _
    | regionText region =>
      simp only
      split <;> exact quiet_pure _
    | regionRows region =>
      simp only
      split <;> exact quiet_pure _
    | regionColumn region declared =>
      simp only at hsome ⊢
      split at hsome
      · exact quiet_pure _
      · exact hcolumn _ _ _ hsome
  have hraw : (e.raw input).value.isSome = true := by
    have hmap : ((e.raw input).value.map e.transformed) = some value := hvalue
    obtain ⟨_, hraw, _⟩ := Option.map_eq_some_iff.1 hmap
    exact hraw ▸ rfl
  unfold extract
  unfold raw at hraw ⊢
  cases hparse : Source.parse? e.source with
  | none =>
    rw [hparse] at hraw
    cases hraw
  | some source =>
    rw [hparse] at hraw
    exact ⟨quiet_bind.2 ⟨hsource source hraw, quiet_pure _⟩, rfl⟩

theorem quiet_reportMismatch (e : Extraction) (m : Option Mismatch) :
    (e.reportMismatch m).Quiet ↔ m = none := by
  cases m with
  | none => exact ⟨fun _ => rfl, fun _ => quiet_pure _⟩
  | some m =>
    refine ⟨fun h => (not_quiet_degrade _ _ _ h).elim, fun h => ?_⟩
    cases h

theorem quiet_store {e : Extraction} {path : Path} (hpath : Path.parse e.fieldPath = .ok path)
    (value : Extracted Float) :
    (e.store tree (some value)).Quiet ↔ (Record.write tree path value).2.Fits := by
  unfold Traced.Quiet
  rw [e.warnings_store hpath, List.append_eq_nil_iff]
  exact and_congr (e.quiet_reportMismatch _) (quiet_reportReplaced _ _)

/-- A field is found and written without a warning if and only if it fits. -/
theorem quiet_step {e : Extraction} {path : Path} (hpath : Path.parse e.fieldPath = .ok path) :
    (e.step input tree).Quiet ↔ e.Fits input tree := by
  unfold step
  rw [quiet_bind]
  cases hvalue : (e.extract input).value with
  | none =>
    refine ⟨fun h => (not_quiet_bind (not_quiet_degrade _ _ _) h.2).elim, ?_⟩
    rintro ⟨_, value, _, hsome, _⟩
    rw [hvalue] at hsome
    cases hsome
  | some value =>
    obtain ⟨hextract, hsource⟩ := e.quiet_extract hvalue
    rw [and_iff_right hextract, e.quiet_store hpath]
    constructor
    · exact fun h => ⟨hsource, value, path, hvalue, hpath, h⟩
    · rintro ⟨_, value', path', hvalue', hpath', hfits⟩
      cases hvalue.symm.trans hvalue'
      cases hpath.symm.trans hpath'
      exact hfits

theorem value_step {e : Extraction} {path : Path} (hpath : Path.parse e.fieldPath = .ok path)
    (tree : Record Float) : ∃ tree', (e.step input tree).value = .ok tree' :=
  ⟨_, e.value_store hpath (e.extract input).value⟩

end Extraction

theorem extractFields_eq_runSteps (input : ExtractionInput) (tree : Record Float)
    (es : List Extraction) :
    extractFields input tree es = runSteps (fun tree e => e.step input tree) tree es := by
  induction es generalizing tree with
  | nil => rfl
  | cons e es ih =>
    rw [extractFields, runSteps, Extraction.step, Traced.bind_assoc]
    refine congrArg (_ >>= ·) (funext fun value => congrArg (_ >>= ·) (funext fun outcome => ?_))
    cases outcome with
    | ok tree' => exact ih tree'
    | error error => rfl

/-- Fields are extracted without a warning if and only if each fits the tree that those before it
leave. -/
theorem quiet_extractFields (input : ExtractionInput) {es : List Extraction}
    (hes : ∀ e ∈ es, ∃ path, Path.parse e.fieldPath = .ok path) (start : Record Float) :
    (extractFields input start es).Quiet ↔ ∀ done e rest, es = done ++ e :: rest →
      ∃ tree, (extractFields input start done).value = .ok tree ∧ e.Fits input tree := by
  simp only [extractFields_eq_runSteps]
  rw [quiet_runSteps fun e he tree => (hes e he).elim fun _ hpath => e.value_step hpath tree]
  refine forall₄_congr fun done e rest hcut => exists_congr fun tree => and_congr_right fun _ => ?_
  obtain ⟨path, hpath⟩ := hes e (hcut ▸ List.mem_append_right done List.mem_cons_self)
  exact e.quiet_step hpath

/-! ### Calculations -/

namespace Calculation

variable {tree : Record Float}

/-- Whether the formula of a calculation is one, sums over numbers only, has a finite value, and
the value fits where it is written. -/
def Fits (tree : Record Float) (c : Calculation) : Prop :=
  ∃ f path, Formula.parse c.formula = .ok f ∧ Path.parse c.fieldPath = .ok path ∧
    (∀ q ∈ f.paths, tree.Summable q) ∧ Numeric.isFinite (f.eval tree).1 = true ∧
    (Record.write tree path (.one (.num (f.eval tree).1))).2.Fits

theorem quiet_reportRemarks (c : Calculation) (remarks : List String) :
    (c.reportRemarks remarks).Quiet ↔ remarks = [] := by
  cases remarks with
  | nil => exact ⟨fun _ => rfl, fun _ => quiet_pure _⟩
  | cons remark remarks =>
    refine ⟨fun h => (not_quiet_bind (not_quiet_degrade _ _ _) h).elim, fun h => ?_⟩
    cases h

/-- A number is never dealt out, so that only what it replaces counts. -/
theorem quiet_store (c : Calculation) (path : Path) (x : Float) :
    (c.store tree path x).Quiet ↔ (Record.write tree path (.one (.num x))).2.Fits := by
  have hquiet : (c.store tree path x).Quiet ↔
      (Record.write tree path (.one (.num x))).2.replaced = [] := by
    unfold store
    simp only
    rw [quiet_bind, quiet_reportReplaced]
    exact and_iff_left (quiet_bind.2 ⟨quiet_note _ _ _, quiet_pure _⟩)
  exact hquiet.trans (and_iff_right rfl).symm

/-- A calculation is run without a warning if and only if it fits. -/
theorem quiet_run {c : Calculation} {path : Path} (hpath : Path.parse c.fieldPath = .ok path) :
    (c.run tree).Quiet ↔ c.Fits tree := by
  unfold run Fits
  cases hparse : Formula.parse c.formula with
  | error error =>
    refine ⟨fun h => (not_quiet_bind (not_quiet_degrade _ _ _) h).elim, ?_⟩
    rintro ⟨_, _, hok, _⟩
    cases hok
  | ok f =>
    simp only [hpath, Except.ok.injEq, exists_and_left, exists_eq_left']
    rw [quiet_bind, c.quiet_reportRemarks, Formula.remarks_eval]
    refine and_congr_right fun _ => ?_
    cases Numeric.isFinite (f.eval tree).1 with
    | true =>
      rw [if_pos rfl, quiet_bind, c.quiet_store]
      exact ⟨fun h => ⟨rfl, h.1⟩, fun h => ⟨h.2, quiet_pure _⟩⟩
    | false =>
      constructor
      · exact fun h => (not_quiet_bind (not_quiet_degrade _ _ _) h).elim
      · rintro ⟨h, _⟩
        cases h

theorem exists_value_run {c : Calculation} {path : Path}
    (hpath : Path.parse c.fieldPath = .ok path) (tree : Record Float) :
    ∃ tree', (c.run tree).value = .ok tree' := by
  obtain hrun | ⟨x, hrun⟩ := Calculation.value_run tree hpath
  · exact ⟨_, hrun⟩
  · exact ⟨_, hrun⟩

end Calculation

theorem runCalculations_eq_runSteps (tree : Record Float) (cs : List Calculation) :
    runCalculations tree cs = runSteps (fun tree c => c.run tree) tree cs := by
  induction cs generalizing tree with
  | nil => rfl
  | cons c cs ih =>
    rw [runCalculations, runSteps]
    refine congrArg (_ >>= ·) (funext fun outcome => ?_)
    cases outcome with
    | ok tree' => exact ih tree'
    | error error => rfl

/-- Calculations are run without a warning if and only if each fits the tree that those before it
leave. -/
theorem quiet_runCalculations {cs : List Calculation}
    (hcs : ∀ c ∈ cs, ∃ path, Path.parse c.fieldPath = .ok path) (start : Record Float) :
    (runCalculations start cs).Quiet ↔ ∀ done c rest, cs = done ++ c :: rest →
      ∃ tree, (runCalculations start done).value = .ok tree ∧ c.Fits tree := by
  simp only [runCalculations_eq_runSteps]
  rw [quiet_runSteps fun c hc tree => (hcs c hc).elim fun _ hpath => c.exists_value_run hpath tree]
  refine forall₄_congr fun done c rest hcut => exists_congr fun tree => and_congr_right fun _ => ?_
  obtain ⟨path, hpath⟩ := hcs c (hcut ▸ List.mem_append_right done List.mem_cons_self)
  exact c.quiet_run hpath

end PageExtract
