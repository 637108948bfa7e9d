/-
Anchors of several blocks.

The words of an anchor may lie in different blocks. A chain of blocks begins with a block that
holds the first word. For each further word it goes on with the nearest block of the page that
holds the word and is not in the chain yet, if that is near enough.

* `nearest?`, `chainFrom?` : one step of a chain, and the rest of it;
* `joinChain` : the block that a chain makes up;
* `proximityMatches` : the blocks of all chains for a pattern.
-/
import PageExtract.Layout.Query

namespace PageExtract

/-- How far a block begins from the upper right corner of another one. -/
def cornerDistance (a b : Block Float) : Float :=
  Box.wayLength (b.box.x0 - a.box.x1) (b.box.y0 - a.box.y0)

/-- The nearest of some blocks, if it is nearer than `best`; of blocks as near the first. Blocks of
other pages and blocks that are used do not count. -/
def nearest? (prev : Block Float) (used : List (Block Float)) (best : Float)
    (found : Option (Block Float)) : List (Block Float) → Option (Block Float)
  | [] => found
  | c :: cs =>
    let distance := cornerDistance prev c
    if c.isAmong used || !(c.box.page == prev.box.page) then nearest? prev used best found cs
    else if distance < best then nearest? prev used distance (some c) cs
    else nearest? prev used best found cs

/-- The rest of a chain after `prev`, given the candidates for each further word. -/
def chainFrom? (threshold : Float) (prev : Block Float) (used : List (Block Float)) :
    List (List (Block Float)) → Option (List (Block Float))
  | [] => some []
  | candidates :: more =>
    match nearest? prev used threshold none candidates with
    | some c => (chainFrom? threshold c (c :: used) more).map (c :: ·)
    | none => none

/-- The block that a chain makes up. -/
def joinChain (first : Block Float) (more : List (Block Float)) : Block Float where
  id := "proximity_" ++ first.id
  text := joinTexts (first :: more)
  box := first.box.around (more.map (·.box))
  confidence := Numeric.least first.confidence (more.map (·.confidence))
  fontSize := first.fontSize
  bold := first.bold
  kind := first.kind

/-- The blocks of the chains that begin at some blocks. -/
def chainsFrom (threshold : Float) (candidates : List (List (Block Float)))
    (starts : List (Block Float)) : List (Block Float) :=
  starts.filterMap fun first =>
    (chainFrom? threshold first [first] candidates).map (joinChain first)

/-- The words of a pattern, in lower case. -/
def patternWords (pattern : String) : List String := Text.words (Text.lower pattern)

/-- The blocks in whose text a word of lower case occurs. -/
def Layout.holding {ν : Type} (l : Layout ν) (word : String) : List (Block ν) :=
  l.blocks.filter fun b => Text.contains (Text.lower b.text) word

/-- The blocks that the words of a pattern make up: none if it has fewer than two words. -/
def proximityMatches (l : Layout Float) (pattern : String) (threshold : Float) :
    List (Block Float) :=
  match patternWords pattern with
  | first :: second :: words =>
    chainsFrom threshold ((second :: words).map l.holding) (l.holding first)
  | _ => []

end PageExtract
