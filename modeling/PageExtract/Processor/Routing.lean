/-
The processor for a layout.

A processor made for the fingerprint of the layout is taken first. Else it is the one of whose text
patterns the greatest share occurs in the document. Of several that are as good, the first is taken.

* `Processor.textScore?` : the share of the text patterns that occur;
* `matchProcessor` : the choice.
-/
import PageExtract.Layout.Query
import PageExtract.Processor.Basic

namespace PageExtract

/-- Why a processor was chosen. -/
inductive MatchReason where
  | fingerprint
  | textPatterns
deriving DecidableEq, Repr, Inhabited

/-- How messages name a reason. -/
def MatchReason.text : MatchReason → String
  | fingerprint => "layout_hash"
  | textPatterns => "text_patterns"

/-- A processor that was chosen. -/
structure ProcessorMatch (ν : Type) where
  processor : Processor
  reason : MatchReason
  score : ν

variable {ν : Type} [Numeric ν]

/-- How many text patterns of a processor occur in a text of lower case. -/
def Processor.textHits (text : String) (p : Processor) : Nat :=
  (p.textPatterns.filter fun t => Text.contains text (Text.lower t)).length

/-- The share of the text patterns of a processor that occur in a text of lower case, if it has
any. -/
def Processor.textScore? (text : String) (p : Processor) : Option ν :=
  if p.textPatterns.isEmpty then none
  else some (Numeric.ofNat (p.textHits text) / Numeric.ofNat p.textPatterns.length)

/-- Whether a score is better than that of the best processor so far. -/
def beats (score : ν) : Option (ProcessorMatch ν) → Bool
  | none => 0.0 < score
  | some best => 0.0 < score && best.score < score

/-- The better of the best processor so far and one more. -/
def betterByText (text : String) (best : Option (ProcessorMatch ν)) (p : Processor) :
    Option (ProcessorMatch ν) :=
  match p.textScore? text with
  | some score => if beats score best then some ⟨p, .textPatterns, score⟩ else best
  | none => best

/-- The processor for a layout. -/
def matchProcessor (l : Layout ν) (ps : List Processor) : Option (ProcessorMatch ν) :=
  match ps.find? fun p => p.fingerprint == some l.fingerprint with
  | some p => some ⟨p, .fingerprint, 1.0⟩
  | none => ps.foldl (betterByText (Text.lower l.text)) none

end PageExtract
