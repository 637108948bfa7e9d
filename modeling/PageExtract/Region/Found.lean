/-
Finding regions.

A region holds the blocks of the page of its start anchor that are below that anchor and not below
the top of its end anchor. It is skipped if an anchor is missing or if the two are on different
pages.

* `Region.find?` : the blocks of a region;
* `findRegions` : the blocks of all regions.
-/
import PageExtract.Anchor.Found

namespace PageExtract

/-- The blocks of regions, by the name of the region. -/
abbrev FoundRegions (ν : Type) := Members (List (Block ν))

/-- The blocks of a region that begins at one block and ends at another one or at the end of the
page. -/
def Region.between (l : Layout Float) (r : Region) (start : Block Float)
    (stop : Option (Block Float)) : Traced (Option (List (Block Float))) :=
  match stop.filter fun e => !(e.box.page == start.box.page) with
  | some e => do
    degrade "region.cross_page" s!"Region '{r.name}' skipped: anchors are on different pages"
      [logText "region" r.name, logNumber "start_page" start.box.page,
        logNumber "end_page" e.box.page]
    return none
  | none => do
    let blocks := l.blocksBetween start stop
    note .debug "region.resolved"
      [logText "region" r.name, logCount "blocks" blocks.length, logNumber "page" start.box.page]
    return some blocks

/-- The block at which a region ends, unless it goes on to the end of the page. -/
def Region.stop? (found : FoundAnchors Float) (r : Region) : Option (Block Float) :=
  if r.isOpen then none else Members.get? found r.endAnchor

/-- Reports that an anchor of a region is missing. -/
def Region.skip (r : Region) (start stop : Option (Block Float)) :
    Traced (Option (List (Block Float))) := do
  degrade "region.missing_anchor" s!"Region '{r.name}' skipped: anchor not found"
    [logText "region" r.name, logFlag "start" start.isSome,
      logFlag "end" (r.isOpen || stop.isSome)]
  return none

/-- The blocks of a region, unless it is skipped. -/
def Region.find? (l : Layout Float) (found : FoundAnchors Float) (r : Region) :
    Traced (Option (List (Block Float))) :=
  let stop := r.stop? found
  match Members.get? found r.startAnchor with
  | some start =>
    if r.isOpen || stop.isSome then r.between l start stop else r.skip (some start) stop
  | none => r.skip none stop

/-- The blocks of some regions, added to those of others. -/
def findRegionsFrom (l : Layout Float) (found : FoundAnchors Float) (so : FoundRegions Float) :
    List Region → Traced (FoundRegions Float)
  | [] => pure so
  | r :: rs => do
    match ← r.find? l found with
    | some blocks => findRegionsFrom l found (Members.put so r.name blocks) rs
    | none => findRegionsFrom l found so rs

/-- The blocks of all regions that are not skipped, in order. -/
def findRegions (l : Layout Float) (found : FoundAnchors Float) (regions : List Region) :
    Traced (FoundRegions Float) := findRegionsFrom l found [] regions

end PageExtract
