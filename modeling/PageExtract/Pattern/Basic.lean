/-
Search patterns.

A pattern is a regular expression with groups, back references, look-around and lazy or greedy
repetition. It works on UTF-16 code units, so a character beyond the basic plane counts as two
symbols.

* `Pattern` : the syntax trees;
* `ClassItem`, `UnitClass` : the members of a character class;
* `Symbol` : what a pattern is written with;
* `groupName?` : the name of a group;
* `groupNames` : the capturing groups of a pattern, in the order of their opening.
-/
import PageExtract.Number.Numeral
import PageExtract.Text.Identifier
import PageExtract.Text.Units

namespace PageExtract

/-- The predefined classes: digits, word characters, white space and their complements. -/
inductive UnitClass where
  | digit
  | word
  | space
  | notDigit
  | notWord
  | notSpace
deriving DecidableEq, Repr, Inhabited

/-- A member of a character class. -/
inductive ClassItem where
  | range (low high : Nat)
  | named (c : UnitClass)
deriving DecidableEq, Repr, Inhabited

/-- A pattern. -/
inductive Pattern where
  | empty
  | unit (n : Nat)
  /-- Any unit that does not end a line. -/
  | any
  | oneOf (negated : Bool) (items : List ClassItem)
  | seq (first second : Pattern)
  | alt (first second : Pattern)
  | group (index : Nat) (body : Pattern)
  /-- Repeats the body; the groups from `first` up to `last` are forgotten before each turn. -/
  | loop (body : Pattern) (least : Nat) (most : Option Nat) (greedy : Bool) (first last : Nat)
  | start
  | finish
  | wordEdge (negated : Bool)
  | look (behind negated : Bool) (body : Pattern)
  | back (index : Nat)
deriving DecidableEq, Repr, Inhabited

/-- A symbol of a pattern: a character of the basic plane or half of another one. -/
inductive Symbol where
  | char (c : Char)
  | half (n : Nat)
deriving DecidableEq, Repr, Inhabited

/-- The code unit of a symbol. -/
def Symbol.unit : Symbol → Nat
  | char c => c.toNat
  | half n => n

/-- The symbols of one character. -/
def symbolsOfChar (c : Char) : List Symbol :=
  if c.toNat < 0x10000 then [.char c] else (Text.charUnits c).map .half

/-- The symbols of a text. -/
def symbols (s : String) : List Symbol := s.toList.flatMap symbolsOfChar

/-- The value of as many digits of base sixteen as a size says. -/
def hex? (size : Nat) (ss : List Symbol) : Option (Nat × List Symbol) :=
  let ds := (ss.take size).filterMap fun s => match s with
    | .char c => some c
    | .half _ => none
  if ds.length = size then (Numeral.basedNat? 16 ds).map (·, ss.drop size) else none

/-- The value of the digits of base sixteen in front, and what follows them. -/
def hexRun : List Symbol → List Char × List Symbol
  | .char c :: ss =>
    if (Numeral.basedDigit? 16 c).isSome then
      let (ds, rest) := hexRun ss
      (c :: ds, rest)
    else ([], .char c :: ss)
  | ss => ([], ss)

/-- A code point in braces, after the opening brace. -/
def bracedPoint? (ss : List Symbol) : Option (Nat × List Symbol) :=
  match hexRun ss with
  | (ds, .char '\x7d' :: rest) =>
    (Numeral.basedNat? 16 ds).bind fun n => if n ≤ 0x10FFFF then some (n, rest) else none
  | _ => none

/-- The code point that an escape stands for, after its backslash and letter. Two escapes in a
row that are the halves of a surrogate pair stand for one. -/
def escapedPoint? (ss : List Symbol) : Option (Nat × List Symbol) :=
  match ss with
  | .char '\x7b' :: rest => bracedPoint? rest
  | _ =>
    match hex? 4 ss with
    | some (high, .char '\\' :: .char 'u' :: rest) =>
      match hex? 4 rest with
      | some (low, rest') =>
        if Text.isHigh high && Text.isLow low then some (Text.joinHalves high low, rest')
        else some (high, .char '\\' :: .char 'u' :: rest)
      | none => some (high, .char '\\' :: .char 'u' :: rest)
    | p => p

/-- The code point at the front of what is left of a group name. -/
def namePoint? : List Symbol → Option (Nat × List Symbol)
  | .char '\\' :: .char 'u' :: ss => escapedPoint? ss
  | .char '\\' :: _ => none
  | .char c :: ss => some (c.toNat, ss)
  | .half high :: .half low :: ss =>
    if Text.isHigh high && Text.isLow low then some (Text.joinHalves high low, ss)
    else some (high, .half low :: ss)
  | .half n :: ss => some (n, ss)
  | [] => none

/-- The rest of a group name up to its closing angle bracket, and what follows that. The first
argument bounds the number of steps. -/
def nameTail? : Nat → List Symbol → Option (List Nat × List Symbol)
  | 0, _ => none
  | fuel + 1, ss =>
    match namePoint? ss with
    | none => none
    | some (n, rest) =>
      if n = '>'.toNat then some ([], rest)
      else if Text.isIdentifierPart n then (nameTail? fuel rest).map fun p => (n :: p.1, p.2)
      else none

/-- The group name up to a closing angle bracket, as code points, and what follows it. A name is
an identifier; any of its characters can be written as an escape. -/
def groupName? (ss : List Symbol) : Option (List Nat × List Symbol) :=
  match namePoint? ss with
  | none => none
  | some (n, rest) =>
    if Text.isIdentifierStart n then
      (nameTail? (rest.length + 1) rest).map fun p => (n :: p.1, p.2)
    else none

/-- The capturing group that a parenthesis opens, after the parenthesis, with its name if it has
one. -/
def capturing? : List Symbol → Option (Option (List Nat))
  | .char '?' :: .char '<' :: .char '=' :: _ => none
  | .char '?' :: .char '<' :: .char '!' :: _ => none
  | .char '?' :: .char '<' :: ss => some ((groupName? ss).map (·.1))
  | .char '?' :: _ => none
  | _ => some none

/-- The capturing groups of a pattern in the order of their opening, each with its name if it has
one. A parenthesis inside a class opens none. -/
def groupNames (inClass : Bool) : List Symbol → List (Option (List Nat))
  | [] => []
  | .char '\\' :: _ :: ss => groupNames inClass ss
  | .char '[' :: ss => groupNames true ss
  | .char ']' :: ss => groupNames false ss
  | .char '(' :: ss =>
    if inClass then groupNames true ss
    else match capturing? ss with
      | some name => name :: groupNames false ss
      | none => groupNames false ss
  | _ :: ss => groupNames inClass ss

end PageExtract
