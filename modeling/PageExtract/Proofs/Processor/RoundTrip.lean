/-
Processors that are written and read again.

What a processor is written as has all its members under their present names, in a fixed order, so
that reading it changes nothing: neither the renaming of old members nor a default has anything to
do, and every part reads back.

* `faithful_anchor`, …, `faithful_validation` — the parts of a processor;
* `isData_modernMembers` — renaming old members of data leaves data;
* `Processor.fields`, `modernMembers_fields` — the members of a written processor, and that none of
  them has an old name;
* `Processor.ofMembers_fields` — a processor that was read reads back;
* `ofInput_written` — what is written of an accepted processor is read as that processor.
-/
import PageExtract.Processor.Reader
import PageExtract.Proofs.Execution.Outcome
import PageExtract.Proofs.Schema.Faithful
import PageExtract.Proofs.Value.Parsed

namespace PageExtract

open Reader Checked

/-! ### Parts -/

/-- The fields of an anchor. -/
def Anchor.fields (a : Anchor) : Members (Option (Value Float)) :=
  [("name", some (.str a.name)), ("patterns", some (textsValue a.patterns)),
    ("pattern_type", some (.str a.patternKind.name)),
    ("location_hint", a.hint.map fun h => .str h.name), ("required", some (.bool a.required)),
    ("role", a.role.map fun r => .str r.name)]

theorem Anchor.toValue_eq (a : Anchor) : a.toValue = .map (present a.fields) := by
  obtain ⟨name, patterns, kind, hint, required, role⟩ := a
  cases hint <;> cases role <;> rfl

theorem Anchor.fixed_fields (a : Anchor) : Fixed (Members.names a.fields) := by
  show Fixed ["name", "patterns", "pattern_type", "location_hint", "required", "role"]
  decide

theorem faithful_patternKind :
    Faithful (orElse .contains (oneOf PatternKind.every PatternKind.name))
      fun k => some (.str k.name) :=
  (faithful_oneOf _ _).orElse (readsBack_oneOf rfl (Text.joined_of_whole (by decide)))

theorem faithful_anchor : Faithful Anchor.reader fun a => some a.toValue := by
  simp only [Anchor.toValue_eq]
  refine faithful_object Anchor.fixed_fields fun hms h => ?_
  obtain ⟨_, role, h₅, hrole, rfl⟩ := (faithful_oneOf _ _).optional.last hms h
  obtain ⟨_, required, h₄, hrequired, rfl⟩ :=
    (faithful_flag.orElse (readsBack_flag true)).last hms h₅
  obtain ⟨_, hint, h₃, hhint, rfl⟩ := ((faithful_oneOf _ _).nullable nofun).last hms h₄
  obtain ⟨_, kind, h₂, hkind, rfl⟩ := faithful_patternKind.last hms h₃
  obtain ⟨_, patterns, h₁, hpatterns, rfl⟩ := (faithful_name.listOf 1).last hms h₂
  obtain ⟨name, hname, rfl⟩ := faithful_name.first hms h₁
  have hfixed := Anchor.fixed_fields ⟨name, patterns, kind, hint, required, role⟩
  constructor
  · simp only [hname.member "name" hfixed rfl, hpatterns.member "patterns" hfixed rfl,
      hkind.member "pattern_type" hfixed rfl, hhint.member "location_hint" hfixed rfl,
      hrequired.member "required" hfixed rfl, hrole.member "role" hfixed rfl]
    rfl
  · simp only [Anchor.fields, List.forall_mem_cons]
    exact ⟨hname.proper, hpatterns.proper, hkind.proper, hhint.proper, hrequired.proper,
      hrole.proper, List.forall_mem_nil _⟩

/-- The fields of a region. -/
def Region.fields (r : Region) : Members (Option (Value Float)) :=
  [("name", some (.str r.name)), ("start_anchor", some (.str r.startAnchor)),
    ("end_anchor", some (.str r.endAnchor)), ("region_type", some (.str r.kind.name)),
    ("header_anchors", r.headerAnchors.map textsValue)]

theorem Region.toValue_eq (r : Region) : r.toValue = .map (present r.fields) := by
  obtain ⟨name, startAnchor, endAnchor, kind, headerAnchors⟩ := r
  cases headerAnchors <;> rfl

theorem Region.fixed_fields (r : Region) : Fixed (Members.names r.fields) := by
  show Fixed ["name", "start_anchor", "end_anchor", "region_type", "header_anchors"]
  decide

theorem faithful_regionKind :
    Faithful (orElse .table (oneOf RegionKind.every RegionKind.name)) fun k => some (.str k.name) :=
  (faithful_oneOf _ _).orElse (readsBack_oneOf rfl (Text.joined_of_whole (by decide)))

theorem faithful_region : Faithful Region.reader fun r => some r.toValue := by
  simp only [Region.toValue_eq]
  refine faithful_object Region.fixed_fields fun hms h => ?_
  obtain ⟨_, headerAnchors, h₄, hheaders, rfl⟩ := faithful_text.list.optional.last hms h
  obtain ⟨_, kind, h₃, hkind, rfl⟩ := faithful_regionKind.last hms h₄
  obtain ⟨_, endAnchor, h₂, hend, rfl⟩ := faithful_name.last hms h₃
  obtain ⟨_, startAnchor, h₁, hstart, rfl⟩ := faithful_name.last hms h₂
  obtain ⟨name, hname, rfl⟩ := faithful_name.first hms h₁
  have hfixed := Region.fixed_fields ⟨name, startAnchor, endAnchor, kind, headerAnchors⟩
  constructor
  · simp only [hname.member "name" hfixed rfl, hstart.member "start_anchor" hfixed rfl,
      hend.member "end_anchor" hfixed rfl, hkind.member "region_type" hfixed rfl,
      hheaders.member "header_anchors" hfixed rfl]
    rfl
  · simp only [Region.fields, List.forall_mem_cons]
    exact ⟨hname.proper, hstart.proper, hend.proper, hkind.proper, hheaders.proper,
      List.forall_mem_nil _⟩

/-- The fields of an extraction. -/
def Extraction.fields (e : Extraction) : Members (Option (Value Float)) :=
  [("field_path", some (.str e.fieldPath)), ("source", some (.str e.source)),
    ("transform", e.transform.map fun t => .str t.name)]

theorem Extraction.toValue_eq (e : Extraction) : e.toValue = .map (present e.fields) := by
  obtain ⟨fieldPath, source, transform⟩ := e
  cases transform <;> rfl

theorem Extraction.fixed_fields (e : Extraction) : Fixed (Members.names e.fields) := by
  show Fixed ["field_path", "source", "transform"]
  decide

theorem faithful_extraction : Faithful Extraction.reader fun e => some e.toValue := by
  simp only [Extraction.toValue_eq]
  refine faithful_object Extraction.fixed_fields fun hms h => ?_
  obtain ⟨_, transform, h₂, htransform, rfl⟩ := ((faithful_oneOf _ _).nullable nofun).last hms h
  obtain ⟨_, source, h₁, hsource, rfl⟩ := faithful_name.last hms h₂
  obtain ⟨fieldPath, hpath, rfl⟩ := faithful_name.first hms h₁
  have hfixed := Extraction.fixed_fields ⟨fieldPath, source, transform⟩
  constructor
  · simp only [hpath.member "field_path" hfixed rfl, hsource.member "source" hfixed rfl,
      htransform.member "transform" hfixed rfl]
    rfl
  · simp only [Extraction.fields, List.forall_mem_cons]
    exact ⟨hpath.proper, hsource.proper, htransform.proper, List.forall_mem_nil _⟩

/-- The fields of a calculation. -/
def Calculation.fields (c : Calculation) : Members (Option (Value Float)) :=
  [("field_path", some (.str c.fieldPath)), ("formula", some (.str c.formula)),
    ("description", c.description.map .str)]

theorem Calculation.toValue_eq (c : Calculation) : c.toValue = .map (present c.fields) := by
  obtain ⟨fieldPath, formula, description⟩ := c
  cases description <;> rfl

theorem Calculation.fixed_fields (c : Calculation) : Fixed (Members.names c.fields) := by
  show Fixed ["field_path", "formula", "description"]
  decide

theorem faithful_calculation : Faithful Calculation.reader fun c => some c.toValue := by
  simp only [Calculation.toValue_eq]
  refine faithful_object Calculation.fixed_fields fun hms h => ?_
  obtain ⟨_, description, h₂, hdescription, rfl⟩ := (faithful_text.nullable nofun).last hms h
  obtain ⟨_, formula, h₁, hformula, rfl⟩ := faithful_name.last hms h₂
  obtain ⟨fieldPath, hpath, rfl⟩ := faithful_name.first hms h₁
  have hfixed := Calculation.fixed_fields ⟨fieldPath, formula, description⟩
  constructor
  · simp only [hpath.member "field_path" hfixed rfl, hformula.member "formula" hfixed rfl,
      hdescription.member "description" hfixed rfl]
    rfl
  · simp only [Calculation.fields, List.forall_mem_cons]
    exact ⟨hpath.proper, hformula.proper, hdescription.proper, List.forall_mem_nil _⟩

/-- The fields of a validation. -/
def Validation.fields (v : Validation) : Members (Option (Value Float)) :=
  [("name", some (.str v.name)), ("predicate", some (.str v.predicate)),
    ("severity", some (.str v.severity.name))]

theorem Validation.toValue_eq (v : Validation) : v.toValue = .map (present v.fields) := rfl

theorem Validation.fixed_fields (v : Validation) : Fixed (Members.names v.fields) := by
  show Fixed ["name", "predicate", "severity"]
  decide

theorem faithful_severity :
    Faithful (orElse .error (oneOf Severity.every Severity.name)) fun k => some (.str k.name) :=
  (faithful_oneOf _ _).orElse (readsBack_oneOf rfl (Text.joined_of_whole (by decide)))

theorem faithful_validation : Faithful Validation.reader fun v => some v.toValue := by
  simp only [Validation.toValue_eq]
  refine faithful_object Validation.fixed_fields fun hms h => ?_
  obtain ⟨_, severity, h₂, hseverity, rfl⟩ := faithful_severity.last hms h
  obtain ⟨_, predicate, h₁, hpredicate, rfl⟩ := faithful_name.last hms h₂
  obtain ⟨name, hname, rfl⟩ := faithful_name.first hms h₁
  have hfixed := Validation.fixed_fields ⟨name, predicate, severity⟩
  constructor
  · simp only [hname.member "name" hfixed rfl, hpredicate.member "predicate" hfixed rfl,
      hseverity.member "severity" hfixed rfl]
    rfl
  · simp only [Validation.fields, List.forall_mem_cons]
    exact ⟨hname.proper, hpredicate.proper, hseverity.proper, List.forall_mem_nil _⟩

/-! ### Members under their present names -/

section

variable {ν : Type}

theorem isData_put {ms : Members (Value ν)} (hms : (Value.map ms).IsData) {name : String}
    (hname : Fixed [name]) {v : Value ν} (hv : v.IsData) :
    (Value.map (Members.put ms name v)).IsData := by
  obtain ⟨hindex, hwhole⟩ := hname.2 name List.mem_cons_self
  rw [Members.put_eq_set ms hindex]
  exact hms.set (Text.joined_of_whole hwhole) hv

theorem isData_renameMember {ms : Members (Value ν)} (hms : (Value.map ms).IsData)
    (old new : String) (hnew : Fixed [new]) : (Value.map (renameMember old new ms)).IsData := by
  unfold renameMember
  split
  · exact isData_put hms hnew (hms.get ‹_›)
  · exact hms

theorem isData_renameIn {v : Value ν} (hv : v.IsData) (old new : String)
    (hnew : Fixed [new]) : (renameIn old new v).IsData := by
  unfold renameIn
  split
  · exact isData_renameMember hv old new hnew
  · exact hv

theorem isData_changeItems {ms : Members (Value ν)} (hms : (Value.map ms).IsData) (key : String)
    (hkey : Fixed [key]) {change : Value ν → Value ν}
    (hchange : ∀ {v : Value ν}, v.IsData → (change v).IsData) :
    (Value.map (changeItems key change ms)).IsData := by
  unfold changeItems
  split
  · refine isData_put hms hkey ?_
    cases hms.get ‹_› with
    | list hvs => exact .list (List.forall_mem_map.2 fun v hv => hchange (hvs v hv))
  · exact hms

theorem isData_modernMembers {ms : Members (Value ν)} (hms : (Value.map ms).IsData) :
    (Value.map (modernMembers ms)).IsData := by
  have hrenamed := isData_renameMember hms "field_column_mapping" "field_column_map"
    (by decide)
  have herased := hrenamed.erase "field_column_mapping"
  have hcalculations := isData_changeItems herased "calculations" (by decide)
    fun hv => isData_renameIn hv "field" "field_path" (by decide)
  exact isData_changeItems hcalculations "validations" (by decide)
    fun hv => isData_renameIn hv "check" "predicate" (by decide)

theorem renameMember_of_absent {old new : String} {ms : Members (Value ν)}
    (hold : Members.get? ms old = none) : renameMember old new ms = ms := by
  unfold renameMember
  rw [hold]
  split
  · contradiction
  · rfl

/-- Items that the change keeps as they are stay in their list. -/
theorem changeItems_of_kept {ms : Members (Value ν)} {key : String} {vs : List (Value ν)}
    {change : Value ν → Value ν} (hvs : Members.get? ms key = some (.list vs))
    (hkept : ∀ v ∈ vs, change v = v) : changeItems key change ms = ms := by
  unfold changeItems
  rw [hvs]
  have hmap : vs.map change = vs := (List.map_congr_left hkept).trans (List.map_id vs)
  have hhas : Members.has ms key = true := by
    rw [Members.has, hvs]
    rfl
  simp only [hmap, Members.put, hhas, if_true]
  exact Members.replace_get hvs

end

/-! ### Processors -/

/-- The fields of a processor. -/
def Processor.fields (p : Processor) : Members (Option (Value Float)) :=
  [("id", some (.str p.id)), ("name", some (.str p.name)),
    ("document_type", some (.str p.documentType)), ("version", some (.num p.version)),
    ("created_at", some (.str p.createdAt)), ("updated_at", some (.str p.updatedAt)),
    ("layout_hash", p.fingerprint.map .str), ("text_patterns", some (textsValue p.textPatterns)),
    ("anchors", some (.list (p.anchors.map Anchor.toValue))),
    ("regions", some (.list (p.regions.map Region.toValue))),
    ("extraction_ops", some (.list (p.extractions.map Extraction.toValue))),
    ("calculations", some (.list (p.calculations.map Calculation.toValue))),
    ("validations", some (.list (p.validations.map Validation.toValue))),
    ("field_column_map", p.fieldColumns.map fun ms => .map (ms.map fun m => (m.1, .str m.2)))]

theorem Processor.toValue_eq (p : Processor) : p.toValue = .map (present p.fields) := by
  unfold Processor.toValue Processor.fields
  cases p.fingerprint <;> cases p.fieldColumns <;> rfl

theorem Processor.fixed_fields (p : Processor) : Fixed (Members.names p.fields) := by
  show Fixed ["id", "name", "document_type", "version", "created_at", "updated_at", "layout_hash",
    "text_patterns", "anchors", "regions", "extraction_ops", "calculations", "validations",
    "field_column_map"]
  decide

/-- A written processor has no old names. -/
theorem modernMembers_fields (p : Processor) :
    modernMembers (present p.fields) = present p.fields := by
  have hget := get?_present p.fixed_fields.1
  have hold : Members.get? (present p.fields) "field_column_mapping" = none := hget _
  have hcalculations : Members.get? (present p.fields) "calculations" =
      some (.list (p.calculations.map Calculation.toValue)) := hget _
  have hvalidations : Members.get? (present p.fields) "validations" =
      some (.list (p.validations.map Validation.toValue)) := hget _
  unfold modernMembers
  rw [renameMember_of_absent hold, Members.erase_of_absent hold,
    changeItems_of_kept hcalculations (List.forall_mem_map.2 fun c _ => ?_),
    changeItems_of_kept hvalidations (List.forall_mem_map.2 fun v _ => ?_)]
  · rfl
  · rfl

/-- The members of a processor that was read read back, whatever the time is. -/
theorem Processor.ofMembers_fields {now : String} (hnow : Text.joined now = now)
    {ms : Members (Value Float)} (hms : (Value.map ms).IsData) {p : Processor}
    (h : Processor.ofMembers now ms = pure p) :
    (∀ later, Processor.ofMembers later (present p.fields) = pure p) ∧
      (Value.map (present p.fields)).IsPlain := by
  have hgeneric : Text.joined "generic" = "generic" := Text.joined_of_whole (by decide)
  have hone : ReadsBack positiveCountReader (fun x => some (.num x)) (1.0 : Float) :=
    readsBack_positiveCount (by rfl) (by decide)
  -- The fields are taken off one by one, the last one first.
  obtain ⟨_, columns, h₁₃, hcolumns, rfl⟩ := (faithful_textMap.nullable nofun).last hms h
  obtain ⟨_, validations, h₁₂, hvalidations, rfl⟩ :=
    (faithful_validation.list.orElse readsBack_nil).last hms h₁₃
  obtain ⟨_, calculations, h₁₁, hcalculations, rfl⟩ :=
    (faithful_calculation.list.orElse readsBack_nil).last hms h₁₂
  obtain ⟨_, extractions, h₁₀, hextractions, rfl⟩ :=
    (faithful_extraction.list.orElse readsBack_nil).last hms h₁₁
  obtain ⟨_, regions, h₉, hregions, rfl⟩ :=
    (faithful_region.list.orElse readsBack_nil).last hms h₁₀
  obtain ⟨_, anchors, h₈, hanchors, rfl⟩ :=
    (faithful_anchor.list.orElse readsBack_nil).last hms h₉
  obtain ⟨_, texts, h₇, htexts, rfl⟩ := (faithful_text.list.orElse readsBack_nil).last hms h₈
  obtain ⟨_, fingerprint, h₆, hfingerprint, rfl⟩ := (faithful_text.nullable nofun).last hms h₇
  obtain ⟨_, updated, h₅, hupdated, rfl⟩ :=
    (faithful_text.orElse (readsBack_text hnow)).last hms h₆
  obtain ⟨_, created, h₄, hcreated, rfl⟩ :=
    (faithful_text.orElse (readsBack_text hnow)).last hms h₅
  obtain ⟨_, version, h₃, hversion, rfl⟩ :=
    (faithful_positiveCount.orElse hone).last hms h₄
  obtain ⟨_, kind, h₂, hkind, rfl⟩ :=
    (faithful_text.orElse (readsBack_text hgeneric)).last hms h₃
  obtain ⟨_, name, h₁, hname, rfl⟩ := faithful_name.last hms h₂
  obtain ⟨id, hid, rfl⟩ := faithful_name.first hms h₁
  have hfixed := Processor.fixed_fields ⟨id, name, kind, version, created, updated, fingerprint,
    texts, anchors, regions, extractions, calculations, validations, columns⟩
  constructor
  · intro later
    unfold Processor.ofMembers
    simp only [hid.member "id" hfixed rfl, hname.member "name" hfixed rfl,
      hkind.member "document_type" hfixed rfl, hversion.member "version" hfixed rfl,
      (hcreated.of_orElse.orElse later).member "created_at" hfixed rfl,
      (hupdated.of_orElse.orElse later).member "updated_at" hfixed rfl,
      hfingerprint.member "layout_hash" hfixed rfl, htexts.member "text_patterns" hfixed rfl,
      hanchors.member "anchors" hfixed rfl, hregions.member "regions" hfixed rfl,
      hextractions.member "extraction_ops" hfixed rfl,
      hcalculations.member "calculations" hfixed rfl,
      hvalidations.member "validations" hfixed rfl,
      hcolumns.member "field_column_map" hfixed rfl]
    rfl
  · refine proper_present hfixed ?_
    simp only [Processor.fields, List.forall_mem_cons]
    exact ⟨hid.proper, hname.proper, hkind.proper, hversion.proper, hcreated.proper,
      hupdated.proper, hfingerprint.proper, htexts.proper, hanchors.proper, hregions.proper,
      hextractions.proper, hcalculations.proper, hvalidations.proper, hcolumns.proper,
      List.forall_mem_nil _⟩

/-! ### Writing and reading -/

/-- A processor is read from the members of a value that data can have. -/
theorem Processor.exists_members_of_ofInput {now : String} {v : Option (Value Float)}
    {p : Processor} (hv : ∀ w ∈ v, w.IsData) (hp : Processor.ofInput now v = .ok p) :
    ∃ ms, (Value.map ms).IsData ∧ Processor.ofMembers now (modernMembers ms) = pure p := by
  obtain ⟨w, hw, hsource⟩ := Processor.exists_ofValue_of_ofInput hp
  -- What a text holds can be data, whatever the text is.
  have hdata : ∀ u ∈ w, u.IsData := by
    obtain rfl | ⟨s, rfl⟩ := hsource
    · exact hv
    · exact fun _ hu => Value.isData_of_parse hu
  have hread := toExcept_eq_ok_iff_pure.1 (Processor.ofValue_eq_ok_iff.1 hw).1
  unfold Processor.reader object at hread
  split at hread
  · rename_i ms
    exact ⟨ms, hdata _ rfl, hread⟩
  · exact absurd hread refuse_ne_pure

/-- A processor that was read, from a value or from text as data can have them, can be written. Its
text does not depend on the time, it is read as the same processor, and that is written as the same
text again. -/
theorem ofInput_written {now : String} (hnow : Text.joined now = now) {v : Option (Value Float)}
    (hv : ∀ w ∈ v, w.IsData) {p : Processor} (hp : Processor.ofInput now v = .ok p) :
    (∀ later, p.written later = .ok p.serialize) ∧
      (∀ later, Processor.ofInput later (some (.str p.serialize)) = .ok p) ∧
      ∀ later q, Processor.ofInput later (some (.str p.serialize)) = .ok q →
        ∀ last, q.written last = .ok p.serialize := by
  obtain ⟨ms, hms, hread⟩ := Processor.exists_members_of_ofInput hv hp
  obtain ⟨hback, hwhole⟩ := Processor.ofMembers_fields hnow (isData_modernMembers hms) hread
  have hwritten : ∀ later, p.written later = .ok p.serialize := by
    intro later
    rw [Processor.written, p.toValue_eq, object, hback]
    rfl
  have hagain : ∀ later, Processor.ofInput later (some (.str p.serialize)) = .ok p := by
    intro later
    have hparse : Value.parse? p.serialize = some p.toValue :=
      Value.parse_indented (p.toValue_eq ▸ hwhole)
    have hreader : Processor.reader later (some p.toValue) = pure p := by
      rw [p.toValue_eq, Processor.reader, object, modernMembers_fields, hback]
    unfold Processor.ofInput
    simp only [hparse]
    exact Processor.ofValue_eq_ok_iff.2
      ⟨toExcept_eq_ok_iff_pure.2 hreader, Processor.specIssues_of_ofInput hp⟩
  refine ⟨hwritten, hagain, fun later q hq => ?_⟩
  obtain rfl : p = q := Except.ok.inj ((hagain later).symm.trans hq)
  exact hwritten

/-- A processor as it was written before some members were renamed, with members that are null and
one that no processor has. -/
def letterSpec : Value Float :=
  .map [("id", .str "letter"), ("name", .str "Letter"), ("layout_hash", .null),
    ("field_column_mapping", .map [("price", .str "Unit price")]),
    ("anchors", .list [.map [("name", .str "total"), ("patterns", .list [.str "Total"]),
      ("location_hint", .null)]]),
    ("calculations", .list [.map [("field", .str "sum"), ("formula", .str "sum(items[].price)")]]),
    ("validations", .list [.map [("name", .str "positive"), ("check", .str "sum > 0")]]),
    ("note", .bool true)]

/-- The processor that `letterSpec` holds. -/
def letter : Processor where
  id := "letter"
  name := "Letter"
  documentType := "generic"
  version := 1.0
  createdAt := "2024-05-01"
  updatedAt := "2024-05-01"
  fingerprint := none
  textPatterns := []
  anchors := [⟨"total", ["Total"], .contains, none, true, none⟩]
  regions := []
  extractions := []
  calculations := [⟨"sum", "sum(items[].price)", none⟩]
  validations := [⟨"positive", "sum > 0", .error⟩]
  fieldColumns := some [("price", "Unit price")]

theorem isData_letterSpec : letterSpec.IsData := by
  have htext : ∀ {s : String}, s.toList.any Text.isHalf = false →
      (Value.str s : Value Float).IsData := fun hs => .str (Text.joined_of_whole hs)
  have hanchor : (Value.map [("name", .str "total"), ("patterns", .list [.str "Total"]),
      ("location_hint", .null)] : Value Float).IsData := by
    refine Fixed.proper (by decide) ?_
    simp only [List.forall_mem_cons]
    exact ⟨htext (by decide), .list (List.forall_mem_singleton.2 (htext (by decide))), .null,
      List.forall_mem_nil _⟩
  have hcalculation : (Value.map [("field", .str "sum"), ("formula", .str "sum(items[].price)")] :
      Value Float).IsData := by
    refine Fixed.proper (by decide) ?_
    simp only [List.forall_mem_cons]
    exact ⟨htext (by decide), htext (by decide), List.forall_mem_nil _⟩
  have hvalidation : (Value.map [("name", .str "positive"), ("check", .str "sum > 0")] :
      Value Float).IsData := by
    refine Fixed.proper (by decide) ?_
    simp only [List.forall_mem_cons]
    exact ⟨htext (by decide), htext (by decide), List.forall_mem_nil _⟩
  have hcolumns : (Value.map [("price", .str "Unit price")] : Value Float).IsData :=
    Fixed.proper (by decide) (List.forall_mem_singleton.2 (htext (by decide)))
  refine Fixed.proper (by decide) ?_
  simp only [List.forall_mem_cons]
  exact ⟨htext (by decide), htext (by decide), .null, hcolumns,
    .list (List.forall_mem_singleton.2 hanchor), .list (List.forall_mem_singleton.2 hcalculation),
    .list (List.forall_mem_singleton.2 hvalidation), .bool true, List.forall_mem_nil _⟩

theorem ofInput_written_letter :
    Processor.ofInput "2024-05-01" (some letterSpec) = .ok letter ∧
      (∀ later, letter.written later = .ok letter.serialize) ∧
      (∀ later, Processor.ofInput later (some (.str letter.serialize)) = .ok letter) ∧
      ∀ later q, Processor.ofInput later (some (.str letter.serialize)) = .ok q →
        ∀ last, q.written last = .ok letter.serialize := by
  have hread : Processor.ofInput "2024-05-01" (some letterSpec) = .ok letter := by rfl
  exact ⟨hread, ofInput_written (Text.joined_of_whole (by decide))
    (fun _ hw => Option.some.inj hw ▸ isData_letterSpec) hread⟩

end PageExtract
