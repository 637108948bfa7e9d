/-
Matching patterns, ignoring case.

A pattern is tried at every position of a text. The choices of a repetition or an alternative are
tried in order, and an earlier choice is reconsidered when what follows does not match. Inside a
look-behind the pattern is matched from right to left.

* `Pattern.run` : matching from a position, with what is to match afterwards;
* `Pattern.test` : whether a pattern matches somewhere in a text.
-/
import PageExtract.Pattern.Basic
import PageExtract.Text.Blank
import PageExtract.Text.Case

namespace PageExtract

/-- Where matching has come to, and what the groups have captured. -/
structure MatchState where
  pos : Nat
  captures : List (Nat × (Nat × Nat))
deriving DecidableEq, Repr, Inhabited

namespace MatchState

/-- Forgets the groups from `first` up to `last`. -/
def forget (first last : Nat) (s : MatchState) : MatchState :=
  ⟨s.pos, s.captures.filter fun c => c.1 < first || last < c.1⟩

/-- Records what a group has captured. -/
def capture (index low high : Nat) (s : MatchState) : MatchState :=
  ⟨s.pos, (index, (low, high)) :: s.captures⟩

end MatchState

/-- Whether a unit ends a line. -/
def isLineEnd (n : Nat) : Bool := n == 10 || n == 13 || n == 0x2028 || n == 0x2029

/-- Whether a unit is a word character. -/
def isWordUnit (n : Nat) : Bool :=
  (48 ≤ n && n ≤ 57) || (65 ≤ n && n ≤ 90) || n == 95 || (97 ≤ n && n ≤ 122)

/-- Whether a unit is a digit. -/
def isDigitUnit (n : Nat) : Bool := 48 ≤ n && n ≤ 57

/-- Whether a unit is blank. -/
def isBlankUnit (n : Nat) : Bool := !Text.isHigh n && !Text.isLow n && Text.isBlank (Char.ofNat n)

/-- Whether a unit belongs to a predefined class. -/
def UnitClass.holds (c : UnitClass) (n : Nat) : Bool :=
  match c with
  | digit => isDigitUnit n
  | word => isWordUnit n
  | space => isBlankUnit n
  | notDigit => !isDigitUnit n
  | notWord => !isWordUnit n
  | notSpace => !isBlankUnit n

/-- Whether a unit belongs to a member of a class. -/
def ClassItem.holds (i : ClassItem) (n : Nat) : Bool :=
  match i with
  | range low high => low ≤ n && n ≤ high
  | named c => c.holds n

/-- The units that differ from `n` only in case, `n` among them. -/
def caseMates (n : Nat) : List Nat :=
  let up := Text.foldUnit n
  let lows := Text.upperRuns.filterMap fun r =>
    let m := ((up : Int) - r.shift).toNat
    if r.first ≤ m && m ≤ r.last then some m else none
  (n :: up :: (up + 32) :: lows).filter fun m => Text.foldUnit m == up

/-- Whether a unit belongs to a class, ignoring case. -/
def inClass (negated : Bool) (items : List ClassItem) (n : Nat) : Bool :=
  ((caseMates n).any fun m => items.any fun i => i.holds m) != negated

namespace Pattern

/-- What is to match after a part of a pattern. -/
abbrev Continuation := MatchState → Option MatchState

/-- The part of the text that one step in a direction passes over: the unit and the new
position. -/
def step? (text : Array Nat) (back : Bool) (pos : Nat) : Option (Nat × Nat) :=
  if back then
    if pos = 0 then none else text[pos - 1]?.map (·, pos - 1)
  else text[pos]?.map (·, pos + 1)

/-- Matches one unit that passes a test. -/
def matchUnit (text : Array Nat) (back : Bool) (ok : Nat → Bool) (s : MatchState)
    (k : Continuation) : Option MatchState :=
  match step? text back s.pos with
  | some (n, pos) => if ok n then k ⟨pos, s.captures⟩ else none
  | none => none

/-- Whether a unit at a position is a word character. -/
def wordAt (text : Array Nat) (pos : Nat) : Bool := (text[pos]?.map isWordUnit).getD false

/-- Whether a word begins or ends at a position. -/
def atWordEdge (text : Array Nat) (pos : Nat) : Bool :=
  (pos != 0 && wordAt text (pos - 1)) != wordAt text pos

/-- Whether two stretches of a text of one length are equal, ignoring case. -/
def sameStretch (text : Array Nat) (a b : Nat) : Nat → Bool
  | 0 => true
  | n + 1 =>
    (match text[a]?, text[b]? with
      | some x, some y => Text.foldUnit x == Text.foldUnit y
      | _, _ => false) && sameStretch text (a + 1) (b + 1) n

/-- Matches what a group has captured once more; nothing, if it has captured nothing. -/
def matchBack (text : Array Nat) (back : Bool) (index : Nat) (s : MatchState)
    (k : Continuation) : Option MatchState :=
  match s.captures.lookup index with
  | none => k s
  | some (low, high) =>
    let size := high - low
    if back then
      if size ≤ s.pos && sameStretch text low (s.pos - size) size then
        k ⟨s.pos - size, s.captures⟩
      else none
    else if sameStretch text low s.pos size then k ⟨s.pos + size, s.captures⟩
    else none

/-- Repeats a step between `least` and `most` times. A turn that is not required has to move on.
The first argument bounds the number of turns. -/
def iterate (turn : MatchState → Continuation → Option MatchState) (greedy : Bool) :
    Nat → Nat → Option Nat → MatchState → Continuation → Option MatchState
  | 0, _, _, s, k => k s
  | fuel + 1, least, most, s, k =>
    if most = some 0 then k s
    else
      let again (_ : Unit) := turn s fun s' =>
        if least = 0 ∧ s'.pos = s.pos then none
        else iterate turn greedy fuel (least - 1) (most.map (· - 1)) s' k
      if 0 < least then again ()
      else if greedy then again () <|> k s
      else k s <|> again ()

/-- Matches a pattern from a state on, backwards if `back`, and then what follows it. -/
def run (text : Array Nat) (back : Bool) :
    Pattern → MatchState → Continuation → Option MatchState
  | .empty, s, k => k s
  | .unit n, s, k => matchUnit text back (fun m => Text.foldUnit m == Text.foldUnit n) s k
  | .any, s, k => matchUnit text back (fun m => !isLineEnd m) s k
  | .oneOf negated items, s, k => matchUnit text back (inClass negated items) s k
  | .seq p q, s, k =>
    if back then run text back q s fun s' => run text back p s' k
    else run text back p s fun s' => run text back q s' k
  | .alt p q, s, k => run text back p s k <|> run text back q s k
  | .group index p, s, k =>
    run text back p s fun s' => k (s'.capture index (min s.pos s'.pos) (max s.pos s'.pos))
  | .loop p least most greedy first last, s, k =>
    iterate (fun s' k' => run text back p (s'.forget first last) k') greedy
      (least + text.size + 1) least most s k
  | .start, s, k => if s.pos = 0 then k s else none
  | .finish, s, k => if s.pos = text.size then k s else none
  | .wordEdge negated, s, k => if atWordEdge text s.pos != negated then k s else none
  | .look behind negated p, s, k =>
    match run text behind p s some with
    | some s' => if negated then none else k ⟨s.pos, s'.captures⟩
    | none => if negated then k s else none
  | .back index, s, k => matchBack text back index s k

/-- Whether a pattern matches from a position on. -/
def matchesAt (p : Pattern) (text : Array Nat) (pos : Nat) : Bool :=
  (run text false p ⟨pos, []⟩ some).isSome

/-- Whether a pattern matches somewhere in a text. -/
def test (p : Pattern) (s : String) : Bool :=
  let text := (Text.units s).toArray
  (List.range (text.size + 1)).any (matchesAt p text)

end Pattern

end PageExtract
