/-
Finding anchors.

The patterns of an anchor are tried in order. A pattern that occurs in no block as it is may still
be spread over several blocks, unless it is a regular expression. Of the blocks that match, the
location hint says which are meant; the first of them is the anchor.

* `LocationHint.choose` : the blocks that a hint means;
* `Anchor.find?` : the block of an anchor;
* `findAnchors` : the blocks of all anchors, or the first one that is required and missing.
-/
import PageExtract.Anchor.Proximity
import PageExtract.Pattern.Parser
import PageExtract.Settings
import PageExtract.Table.Basic
import PageExtract.Trace

namespace PageExtract

/-- The blocks that a hint means. -/
def LocationHint.choose {ν : Type} [Numeric ν] (hint : LocationHint) (bs : List (Block ν)) :
    List (Block ν) :=
  match hint with
  | firstOccurrence => (readingOrder bs).take 1
  | secondOccurrence => ((readingOrder bs).drop 1).take 1
  | lastOccurrence => (readingOrder bs).getLast?.toList
  | topThird => bs.filter fun b => b.box.y0 < 0.33
  | topHalf => bs.filter fun b => b.box.y0 < 0.5
  | bottomHalf => bs.filter fun b => (0.5 : ν) ≤ b.box.y0
  | leftHalf => bs.filter fun b => b.box.x0 < 0.5
  | rightHalf => bs.filter fun b => (0.5 : ν) ≤ b.box.x0

/-- The blocks that match a pattern of an anchor. -/
def Anchor.directMatches (l : Layout Float) (a : Anchor) (pattern : String) :
    Traced (List (Block Float)) :=
  match a.patternKind with
  | .exact => pure (l.findTextExact pattern false)
  | .contains => pure (l.findText pattern false)
  | .regex =>
    match Pattern.parse? pattern with
    | some p => pure (l.findPattern p)
    | none => do
      degrade "anchor.regex.invalid" s!"Anchor '{a.name}' has invalid regex '{pattern}'" []
      return []

/-- Whether a pattern may be spread over several blocks. -/
def Anchor.canSpread (a : Anchor) (pattern : String) : Bool :=
  a.patternKind != .regex && (Text.trim pattern).toList.any Text.isBlank

/-- The blocks that match a pattern of an anchor, if none does the blocks that it is spread
over. -/
def Anchor.candidates (l : Layout Float) (s : Settings Float) (a : Anchor) (pattern : String) :
    Traced (List (Block Float)) := do
  let direct ← a.directMatches l pattern
  if direct.isEmpty && a.canSpread pattern then
    let spread := proximityMatches l pattern s.proximityThreshold
    match spread with
    | [] => return []
    | b :: _ =>
      note .debug "anchor.proximity.match"
        [logText "anchor" a.name, logText "pattern" pattern, logText "text" b.text]
      return spread
  else return direct

/-- The blocks that a hint means, if there is one. -/
def Anchor.choose (a : Anchor) (bs : List (Block Float)) : List (Block Float) :=
  match a.hint with
  | some hint => hint.choose bs
  | none => bs

/-- The block of an anchor by the first of some patterns that leads to one. -/
def Anchor.findBy? (l : Layout Float) (s : Settings Float) (a : Anchor) :
    List String → Traced (Option (Block Float))
  | [] => pure none
  | pattern :: patterns => do
    let bs ← a.candidates l s pattern
    match a.choose bs with
    | b :: _ => return some b
    | [] => a.findBy? l s patterns

/-- The block of an anchor. -/
def Anchor.find? (l : Layout Float) (s : Settings Float) (a : Anchor) :
    Traced (Option (Block Float)) := a.findBy? l s a.patterns

/-- A required anchor that is not in a document. -/
structure MissingAnchor where
  anchor : String
deriving DecidableEq, Repr, Inhabited

/-- The words of the error. -/
def MissingAnchor.message (e : MissingAnchor) : String :=
  s!"Required anchor '{e.anchor}' not found in document"

/-- Reports what became of an anchor. -/
def Anchor.report (a : Anchor) : Option (Block Float) → Traced Unit
  | some b =>
    note .debug "anchor.found"
      [logText "anchor" a.name, logText "block_id" b.id, logNumber "page" b.box.page,
        logNumber "y0" b.box.y0]
  | none =>
    if a.required then note .warn "anchor.required.missing" [logText "anchor" a.name]
    else degrade "anchor.optional.missing" s!"Optional anchor '{a.name}' not found"
      [logText "anchor" a.name]

/-- What is known of anchors: the blocks that were found, and the first required anchor that was
not. -/
structure AnchorSearch where
  found : FoundAnchors Float
  missing : Option String
deriving Inhabited

/-- What is known after one more anchor. -/
def AnchorSearch.add (search : AnchorSearch) (a : Anchor) (b : Option (Block Float)) :
    AnchorSearch :=
  match b with
  | some b => { search with found := Members.put search.found a.name b }
  | none =>
    if a.required then { search with missing := search.missing <|> some a.name } else search

/-- Looks for some anchors in order. -/
def searchAnchors (l : Layout Float) (s : Settings Float) (search : AnchorSearch) :
    List Anchor → Traced AnchorSearch
  | [] => pure search
  | a :: anchors => do
    let b ← a.find? l s
    a.report b
    searchAnchors l s (search.add a b) anchors

/-- The blocks of all anchors, in order; an error names the first required anchor that is
missing. -/
def findAnchors (l : Layout Float) (s : Settings Float) (anchors : List Anchor) :
    Traced (Except MissingAnchor (FoundAnchors Float)) := do
  let search ← searchAnchors l s ⟨[], none⟩ anchors
  note .info "anchors.resolve.done"
    [logCount "found" search.found.length, logCount "total" anchors.length]
  match search.missing with
  | some name => return .error ⟨name⟩
  | none => return .ok search.found

end PageExtract
