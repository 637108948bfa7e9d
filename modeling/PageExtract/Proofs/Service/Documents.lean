/-
Two ways to run a processor on a layout.

A layout that is written as JSON can be read and handed to a service, or its bytes can be handed
over as a document. The two runs see the same blocks and count alike, but only the run on the
document looks at the warnings that the layout itself comes with.

* `loadDocument_json`, `runDocument_json` — a layout as a document;
* `withWarnings_eq_self_iff` — when warnings that are added show;
* `executeDocument_json` — the two ways, and when they agree;
* `executeDocument_drops_warning` — they do not always agree.
-/
import PageExtract.Proofs.Bytes.Utf8
import PageExtract.Proofs.Execution.Blocks
import PageExtract.Proofs.Service.Sound

namespace PageExtract

/-! ### Runs on documents -/

/-- A run on a document loads it, runs the processor, and adds the warnings of the layout. -/
theorem runDocument_eq (readPdf : PdfReader) (s : Settings Float) (limit : Int)
    (bytes : List UInt8) (info : DocumentInfo) (p : Processor) :
    runDocument readPdf s limit bytes info p =
      ((loadDocument readPdf limit bytes info).mapError RunError.document).bind fun l =>
        ((execute s l p).value.mapError RunError.execution).bind fun e =>
          .ok (e.withWarnings (l.warnings.getD [])) := by
  unfold runDocument
  rfl

/-- Adding warnings to a result shows, unless there are none. -/
theorem Execution.withWarnings_eq_self_iff (e : Execution) (warnings : List String) :
    e.withWarnings warnings = e ↔ warnings = [] := by
  unfold withWarnings
  cases warnings with
  | nil => exact ⟨fun _ => rfl, fun _ => rfl⟩
  | cons w ws =>
    refine ⟨fun h => ?_, fun h => by cases h⟩
    have hlength := congrArg (fun e => e.warnings.length) h
    simp at hlength
    omega

/-- The warnings that are added do not change whether a validation succeeds. -/
theorem Execution.validation_withWarnings (e : Execution) (warnings : List String) :
    (e.withWarnings warnings).validation = e.validation := by
  unfold withWarnings
  split
  · rfl
  · rfl

/-! ### Layouts as documents -/

theorem Layout.blocks_named (l : Layout Float) (filename : Option String) :
    (l.named filename).blocks = l.blocks := by
  unfold named
  split
  · rfl
  · rfl

theorem Layout.warnings_named (l : Layout Float) (filename : Option String) :
    (l.named filename).warnings = l.warnings := by
  unfold named
  split
  · rfl
  · rfl

section

variable {limit : Int} {t : String} {l : Layout Float} {info : DocumentInfo}
  (hl : Layout.ofInput limit (some (.str (Text.ofScalars t))) = .ok l)
  (hinfo : DocumentKind.guess? info = some .json)

include hl hinfo

/-- The document that is written by a text holds the layout that the text writes. -/
theorem loadDocument_json (readPdf : PdfReader) :
    loadDocument readPdf limit (Utf8.encode (Text.ofScalars t)) info =
      .ok (l.named info.filename) := by
  unfold loadDocument loadJson
  rw [hinfo, Utf8.decode_encode, hl]
  rfl

/-- A run on the document is a run on the layout, and adds the warnings of the layout. -/
theorem runDocument_json (readPdf : PdfReader) (s : Settings Float) (p : Processor) :
    runDocument readPdf s limit (Utf8.encode (Text.ofScalars t)) info p =
      ((execute s l p).value.mapError RunError.execution).map
        (·.withWarnings (l.warnings.getD [])) := by
  have hloaded : runDocument readPdf s limit (Utf8.encode (Text.ofScalars t)) info p =
      ((execute s (l.named info.filename) p).value.mapError RunError.execution).bind fun e =>
        .ok (e.withWarnings ((l.named info.filename).warnings.getD [])) := by
    rw [runDocument_eq, loadDocument_json hl hinfo]
    rfl
  rw [hloaded, execute_congr (l.blocks_named info.filename) s p, l.warnings_named]
  cases (execute s l p).value with
  | error e => rfl
  | ok result => rfl

end

/-! ### The two ways -/

/-- The counts after a run do not depend on the warnings that are added to its result. -/
theorem StoredProcessor.count_withWarnings (stored : StoredProcessor)
    (outcome : Except ExecutionError Execution) (warnings : List String) :
    stored.count RunError.isMissingAnchor
        ((outcome.mapError RunError.execution).map (·.withWarnings warnings)) =
      stored.count ExecutionError.isMissingAnchor outcome := by
  cases outcome with
  | error e => rfl
  | ok result =>
    show (if (result.withWarnings warnings).validation.success then _ else _) = _
    rw [result.validation_withWarnings]
    rfl

/-- A service runs a processor on a document that writes a layout as it runs it on the layout, but
for the warnings of the layout. -/
theorem Service.executeDocument_eq {env : Surroundings} {t : String} {l : Layout Float}
    (hl : Layout.ofInput env.fingerprintBlocks (some (.str (Text.ofScalars t))) = .ok l)
    (s : Service) (id : String) :
    s.executeDocument env id (Utf8.encode (Text.ofScalars t)) ⟨some "x.json", none⟩ =
      ((s.execute env id l).1.map (·.withWarnings (l.warnings.getD [])),
        (s.execute env id l).2) := by
  have hjson : DocumentKind.guess? ⟨some "x.json", none⟩ = some .json := by decide +kernel
  unfold executeDocument execute
  cases s.find id with
  | error e => rfl
  | ok stored =>
    simp only
    rw [runDocument_json hl hjson, stored.count_withWarnings]
    cases (PageExtract.execute env.settings l stored.processor).value with
    | error e => rfl
    | ok result => rfl

/-- A service that has been asked for anything so far runs a stored processor on a layout, and on
the document that is written by the text of the layout. Either the same required anchor is missing
from both, or both have results, and these differ in the warnings of the layout and the review that
such warnings ask for. The service is the same after both. -/
theorem executeDocument_json (env : Surroundings) (commands : List ServiceCommand) {id t : String}
    {l : Layout Float}
    (hid : Members.has (Service.empty.after env commands).stored id = true)
    (hl : Layout.ofInput env.fingerprintBlocks (some (.str (Text.ofScalars t))) = .ok l) :
    let s := Service.empty.after env commands
    let onLayout := s.execute env id l
    let onDocument :=
      s.executeDocument env id (Utf8.encode (Text.ofScalars t)) ⟨some "x.json", none⟩
    onDocument.2 = onLayout.2 ∧
    ((∃ a, onLayout.1 = .error (.execution (.missingAnchor a)) ∧
        onDocument.1 = .error (.execution (.missingAnchor a))) ∨
      ∃ result, onLayout.1 = .ok result ∧
        onDocument.1 = .ok (result.withWarnings (l.warnings.getD [])) ∧
        (onDocument.1 = onLayout.1 ↔ l.warnings.getD [] = [])) := by
  intro s onLayout onDocument
  have hsound : s.Sound := sound_after env commands
  obtain ⟨stored, hget⟩ := Option.isSome_iff_exists.1 hid
  have hfind : s.find id = .ok stored := (find_eq_ok_iff s).2 hget
  have hdocument : onDocument =
      (onLayout.1.map (·.withWarnings (l.warnings.getD [])), onLayout.2) :=
    s.executeDocument_eq hl id
  have hlayout : onLayout.1 =
      (execute env.settings l stored.processor).value.mapError .execution := by
    show (s.execute env id l).1 = _
    unfold Service.execute
    rw [hfind]
  rw [hdocument, hlayout]
  refine ⟨rfl, ?_⟩
  obtain ⟨a, ha⟩ | ⟨result, hresult⟩ := (hsound.find hfind).execute env.settings l
  · rw [ha]
    exact .inl ⟨a, rfl, rfl⟩
  · rw [hresult]
    refine .inr ⟨result, rfl, rfl, ?_⟩
    rw [← result.withWarnings_eq_self_iff]
    exact ⟨fun h => Except.ok.inj h, fun h => congrArg Except.ok h⟩

/-! ### A scan -/

/-- Surroundings in which documents are no PDF documents. -/
def scanSurroundings : Surroundings where
  settings := .standard
  fingerprintBlocks := 50
  now := ""
  newId := toString
  readPdf _ := .error "no PDF document"

/-- A processor as a plain value that does nothing. -/
def scanSpec : Value Float := .map [("id", .str "scan"), ("name", .str "Scan")]

/-- The layout of a scan without text, with a warning that says so, as JSON. -/
def scanText : String :=
  "\x7b\"page_count\":1,\"blocks\":[],\"layout_hash\":\"scan\"," ++
    "\"warnings\":[\"Page 1 has no selectable text\"]\x7d"

/-- The layout that `scanText` writes. -/
def scanned : Layout Float :=
  ⟨none, 1.0, [(1.0, 1.0)], [], "scan", some ["Page 1 has no selectable text"]⟩

theorem ofInput_scanText :
    Layout.ofInput scanSurroundings.fingerprintBlocks (some (.str (Text.ofScalars scanText))) =
      .ok scanned := by
  have hread : (Layout.ofInput scanSurroundings.fingerprintBlocks (some (.str scanText))).toOption =
      some scanned := by
    decide +kernel
  rw [Text.ofScalars_of_whole (by decide)]
  cases h : Layout.ofInput scanSurroundings.fingerprintBlocks (some (.str scanText)) with
  | error e =>
    rw [h] at hread
    cases hread
  | ok l =>
    rw [h] at hread
    exact congrArg Except.ok (Option.some_inj.1 hread)

/-- A service that has stored the processor of `scanSpec`. -/
def scanService : Service := Service.empty.after scanSurroundings [.create (some scanSpec)]

/-- The scan can be run. -/
theorem exists_execute_scanned :
    ∃ result, (scanService.execute scanSurroundings "scan" scanned).1 = .ok result := by
  have hresult : (scanService.execute scanSurroundings "scan" scanned).1.isOk = true := by
    decide +kernel
  cases hrun : (scanService.execute scanSurroundings "scan" scanned).1 with
  | error e =>
    rw [hrun] at hresult
    cases hresult
  | ok result => exact ⟨result, rfl⟩

/-- The run on the scan as a document tells of the warning, and the run on its layout does not. -/
theorem executeDocument_json_scan :
    (scanService.executeDocument scanSurroundings "scan" (Utf8.encode (Text.ofScalars scanText))
      ⟨some "x.json", none⟩).1 ≠ (scanService.execute scanSurroundings "scan" scanned).1 := by
  intro hsame
  have hid : Members.has scanService.stored "scan" = true := by decide +kernel
  obtain ⟨-, ⟨a, ha, -⟩ | ⟨result, -, -, hagree⟩⟩ :=
    executeDocument_json scanSurroundings [.create (some scanSpec)] hid ofInput_scanText
  · obtain ⟨result, hresult⟩ := exists_execute_scanned
    cases ha.symm.trans hresult
  · cases hagree.1 hsame

/-- It is not so that a service answers the same on a layout and on its document. -/
theorem executeDocument_drops_warning :
    ¬ ∀ (env : Surroundings) (commands : List ServiceCommand) (id t : String) (l : Layout Float),
      Members.has (Service.empty.after env commands).stored id = true →
      Layout.ofInput env.fingerprintBlocks (some (.str (Text.ofScalars t))) = .ok l →
      ((Service.empty.after env commands).executeDocument env id
        (Utf8.encode (Text.ofScalars t)) ⟨some "x.json", none⟩).1 =
      ((Service.empty.after env commands).execute env id l).1 := by
  intro h
  have hsame : (scanService.executeDocument scanSurroundings "scan"
      (Utf8.encode (Text.ofScalars scanText)) ⟨some "x.json", none⟩).1 =
        (scanService.execute scanSurroundings "scan" scanned).1 :=
    h scanSurroundings [.create (some scanSpec)] "scan" scanText scanned (by decide +kernel)
      ofInput_scanText
  obtain ⟨result, hresult⟩ := exists_execute_scanned
  rw [Service.executeDocument_eq ofInput_scanText, hresult] at hsame
  cases (result.withWarnings_eq_self_iff _).1 (Except.ok.inj hsame)

end PageExtract
