/-
Processors whose parts fit together.

The names of anchors and of regions are names and differ from each other, every pattern that is
meant to be a regular expression is one, regions refer to anchors that are declared, and every
field path is a path.

* `SpecIssue` : what does not fit;
* `Processor.specIssues` : all that does not fit, in order.
-/
import PageExtract.Pattern.Parser
import PageExtract.Processor.Basic

namespace PageExtract

/-- What does not fit in a processor. -/
inductive SpecIssue where
  | anchorName (name : String)
  | repeatedAnchor (name : String)
  | anchorPattern (anchor pattern : String)
  | regionName (name : String)
  | repeatedRegion (name : String)
  | undeclaredStart (region anchor : String)
  | undeclaredEnd (region anchor : String)
  | undeclaredHeader (region anchor : String)
  | path (error : PathError)
deriving DecidableEq, Repr, Inhabited

/-- The words for what does not fit. -/
def SpecIssue.message : SpecIssue → String
  | anchorName name => s!"invalid anchor name '{name}'"
  | repeatedAnchor name => s!"duplicate anchor name '{name}'"
  | anchorPattern anchor pattern => s!"anchor '{anchor}' has invalid regex '{pattern}'"
  | regionName name => s!"invalid region name '{name}'"
  | repeatedRegion name => s!"duplicate region name '{name}'"
  | undeclaredStart region anchor =>
    s!"region '{region}' references undeclared start_anchor '{anchor}'"
  | undeclaredEnd region anchor =>
    s!"region '{region}' references undeclared end_anchor '{anchor}'"
  | undeclaredHeader region anchor =>
    s!"region '{region}' references undeclared header anchor '{anchor}'"
  | path error => error.message

/-- An issue that arises if a test says so. -/
def issueIf (test : Bool) (issue : SpecIssue) : List SpecIssue := if test then [issue] else []

/-- The patterns of an anchor that should be regular expressions and are none. -/
def Anchor.patternIssues (a : Anchor) : List SpecIssue :=
  if a.patternKind = .regex then
    (a.patterns.filter fun p => (Pattern.parse? p).isNone).map (.anchorPattern a.name)
  else []

/-- What does not fit in anchors, given the names of those before. -/
def anchorIssues (seen : List String) : List Anchor → List SpecIssue
  | [] => []
  | a :: as =>
    issueIf (!isName a.name) (.anchorName a.name) ++
    issueIf (seen.contains a.name) (.repeatedAnchor a.name) ++
    a.patternIssues ++ anchorIssues (a.name :: seen) as

/-- The anchors that a region refers to and that are not declared. -/
def Region.referenceIssues (declared : List String) (r : Region) : List SpecIssue :=
  issueIf (!declared.contains r.startAnchor) (.undeclaredStart r.name r.startAnchor) ++
  issueIf (!r.isOpen && !declared.contains r.endAnchor) (.undeclaredEnd r.name r.endAnchor) ++
  ((r.headerAnchors.getD []).filter fun h => !declared.contains h).map (.undeclaredHeader r.name)

/-- What does not fit in regions, given the names of those before. -/
def regionIssues (declared seen : List String) : List Region → List SpecIssue
  | [] => []
  | r :: rs =>
    issueIf (!isName r.name) (.regionName r.name) ++
    issueIf (seen.contains r.name) (.repeatedRegion r.name) ++
    r.referenceIssues declared ++ regionIssues declared (r.name :: seen) rs

/-- The issue of a text that should be a path. -/
def pathIssue (path : String) : List SpecIssue :=
  match Path.parse path with
  | .ok _ => []
  | .error e => [.path e]

/-- The field paths of a processor, in order. -/
def Processor.fieldPaths (p : Processor) : List String :=
  p.extractions.map (·.fieldPath) ++ p.calculations.map (·.fieldPath)

/-- What does not fit in a processor. -/
def Processor.specIssues (p : Processor) : List SpecIssue :=
  anchorIssues [] p.anchors ++ regionIssues (p.anchors.map (·.name)) [] p.regions ++
    p.fieldPaths.flatMap pathIssue

end PageExtract
