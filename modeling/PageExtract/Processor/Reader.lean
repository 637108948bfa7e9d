/-
Processors as plain values.

Members may have older names: `field_column_mapping` for `field_column_map`, `field` for the
`field_path` of a calculation, and `check` for the `predicate` of a validation.

* `Processor.reader`, `Processor.ofInput` : reading a processor from a plain value, and also from
  text that writes one;
* `Processor.toValue`, `Processor.serialize` : a processor as a plain value and as text, with its
  members in a fixed order;
* `Processor.written` : the text of a processor whose parts are as they should be;
* `ProcessorError` : why there is no processor.
-/
import PageExtract.Layout.Reader
import PageExtract.Processor.Integrity

namespace PageExtract

open Reader

section

variable {ν : Type}

/-- An anchor. -/
def Anchor.reader : Reader ν Anchor := object fun ms =>
  Anchor.mk <$> member "name" Reader.name ms
    <*> member "patterns" (listOf 1 Reader.name) ms
    <*> member "pattern_type" (orElse .contains (oneOf PatternKind.every PatternKind.name)) ms
    <*> member "location_hint" (nullable (oneOf LocationHint.every LocationHint.name)) ms
    <*> member "required" (orElse true flag) ms
    <*> member "role" (optional (oneOf AnchorRole.every AnchorRole.name)) ms

/-- A region. -/
def Region.reader : Reader ν Region := object fun ms =>
  Region.mk <$> member "name" Reader.name ms
    <*> member "start_anchor" Reader.name ms
    <*> member "end_anchor" Reader.name ms
    <*> member "region_type" (orElse .table (oneOf RegionKind.every RegionKind.name)) ms
    <*> member "header_anchors" (optional (list text)) ms

/-- An extraction. -/
def Extraction.reader : Reader ν Extraction := object fun ms =>
  Extraction.mk <$> member "field_path" Reader.name ms
    <*> member "source" Reader.name ms
    <*> member "transform" (nullable (oneOf Transform.every Transform.name)) ms

/-- A calculation. -/
def Calculation.reader : Reader ν Calculation := object fun ms =>
  Calculation.mk <$> member "field_path" Reader.name ms
    <*> member "formula" Reader.name ms
    <*> member "description" (nullable text) ms

/-- A validation. -/
def Validation.reader : Reader ν Validation := object fun ms =>
  Validation.mk <$> member "name" Reader.name ms
    <*> member "predicate" Reader.name ms
    <*> member "severity" (orElse .error (oneOf Severity.every Severity.name)) ms

/-- Gives a member its new name unless the new name is there already. -/
def renameMember (old new : String) (ms : Members (Value ν)) : Members (Value ν) :=
  match Members.get? ms new, Members.get? ms old with
  | none, some v => Members.put ms new v
  | _, _ => ms

/-- Gives a member of a map its new name. -/
def renameIn (old new : String) : Value ν → Value ν
  | .map ms => .map (renameMember old new ms)
  | v => v

/-- Changes the items of a list that is the value of a name. -/
def changeItems (key : String) (change : Value ν → Value ν) (ms : Members (Value ν)) :
    Members (Value ν) :=
  match Members.get? ms key with
  | some (.list vs) => Members.put ms key (.list (vs.map change))
  | _ => ms

/-- The members of a processor under their present names. -/
def modernMembers (ms : Members (Value ν)) : Members (Value ν) :=
  changeItems "validations" (renameIn "check" "predicate")
    (changeItems "calculations" (renameIn "field" "field_path")
      (Members.erase (renameMember "field_column_mapping" "field_column_map" ms)
        "field_column_mapping"))

end

/-- A processor by its members under their present names; `now` is the time for one that does not say
when it was made or changed. -/
def Processor.ofMembers (now : String) (ms : Members (Value Float)) : Checked Processor :=
  Processor.mk <$> member "id" Reader.name ms
    <*> member "name" Reader.name ms
    <*> member "document_type" (orElse "generic" text) ms
    <*> member "version" (orElse 1.0 positiveCountReader) ms
    <*> member "created_at" (orElse now text) ms
    <*> member "updated_at" (orElse now text) ms
    <*> member "layout_hash" (nullable text) ms
    <*> member "text_patterns" (orElse [] (list text)) ms
    <*> member "anchors" (orElse [] (list Anchor.reader)) ms
    <*> member "regions" (orElse [] (list Region.reader)) ms
    <*> member "extraction_ops" (orElse [] (list Extraction.reader)) ms
    <*> member "calculations" (orElse [] (list Calculation.reader)) ms
    <*> member "validations" (orElse [] (list Validation.reader)) ms
    <*> member "field_column_map" (nullable textMap) ms

/-- A processor. -/
def Processor.reader (now : String) : Reader Float Processor :=
  object fun ms => ofMembers now (modernMembers ms)

/-- Why there is no processor. -/
inductive ProcessorError where
  /-- The text is no JSON. -/
  | unreadable
  | malformed (issues : List Issue)
  | inconsistent (issues : List SpecIssue)
deriving DecidableEq, Repr, Inhabited

/-- What is wrong, one message for each issue. -/
def ProcessorError.issues : ProcessorError → List String
  | unreadable => ["invalid JSON"]
  | malformed issues => issues.map Issue.message
  | inconsistent issues => issues.map SpecIssue.message

/-- The words of the error. -/
def ProcessorError.message (e : ProcessorError) : String :=
  "Invalid processor: " ++ "; ".intercalate e.issues

/-- The processor itself if its parts fit together. -/
def Processor.checked (p : Processor) : Except ProcessorError Processor :=
  if p.specIssues.isEmpty then .ok p else .error (.inconsistent p.specIssues)

/-- The processor that a plain value holds. -/
def Processor.ofValue (now : String) (v : Option (Value Float)) :
    Except ProcessorError Processor :=
  match (Processor.reader now v).toExcept with
  | .ok p => p.checked
  | .error issues => .error (.malformed issues)

/-- The processor that a plain value holds, or that is written by a text. -/
def Processor.ofInput (now : String) : Option (Value Float) → Except ProcessorError Processor
  | some (.str s) =>
    match Value.parse? s with
    | some v => ofValue now (some v)
    | none => .error .unreadable
  | v => ofValue now v

section

variable {ν : Type}

/-- An anchor as a plain value. -/
def Anchor.toValue (a : Anchor) : Value ν :=
  .map ([("name", .str a.name), ("patterns", textsValue a.patterns),
      ("pattern_type", .str a.patternKind.name)] ++
    optionalMember "location_hint" (fun h => .str (LocationHint.name h)) a.hint ++
    [("required", .bool a.required)] ++
    optionalMember "role" (fun r => .str (AnchorRole.name r)) a.role)

/-- A region as a plain value. -/
def Region.toValue (r : Region) : Value ν :=
  .map ([("name", .str r.name), ("start_anchor", .str r.startAnchor),
      ("end_anchor", .str r.endAnchor), ("region_type", .str r.kind.name)] ++
    optionalMember "header_anchors" textsValue r.headerAnchors)

/-- An extraction as a plain value. -/
def Extraction.toValue (e : Extraction) : Value ν :=
  .map ([("field_path", .str e.fieldPath), ("source", .str e.source)] ++
    optionalMember "transform" (fun t => .str (Transform.name t)) e.transform)

/-- A calculation as a plain value. -/
def Calculation.toValue (c : Calculation) : Value ν :=
  .map ([("field_path", .str c.fieldPath), ("formula", .str c.formula)] ++
    optionalMember "description" .str c.description)

/-- A validation as a plain value. -/
def Validation.toValue (v : Validation) : Value ν :=
  .map [("name", .str v.name), ("predicate", .str v.predicate),
    ("severity", .str v.severity.name)]

end

/-- A processor as a plain value. -/
def Processor.toValue (p : Processor) : Value Float :=
  .map ([("id", .str p.id), ("name", .str p.name), ("document_type", .str p.documentType),
      ("version", .num p.version), ("created_at", .str p.createdAt),
      ("updated_at", .str p.updatedAt)] ++
    optionalMember "layout_hash" .str p.fingerprint ++
    [("text_patterns", textsValue p.textPatterns),
      ("anchors", .list (p.anchors.map Anchor.toValue)),
      ("regions", .list (p.regions.map Region.toValue)),
      ("extraction_ops", .list (p.extractions.map Extraction.toValue)),
      ("calculations", .list (p.calculations.map Calculation.toValue)),
      ("validations", .list (p.validations.map Validation.toValue))] ++
    optionalMember "field_column_map" (fun ms => .map (ms.map fun m => (m.1, .str m.2)))
      p.fieldColumns)

/-- A processor as text. -/
def Processor.serialize (p : Processor) : String := p.toValue.indented

/-- A processor as text, if it passes the check of its members once more. -/
def Processor.written (now : String) (p : Processor) : Except (List Issue) String :=
  (object (ofMembers now) (some p.toValue)).toExcept.map serialize

end PageExtract
