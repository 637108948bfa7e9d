/-
Queries of addresses: names and values, as forms write them.

A space is written as a plus sign.

* `Query.encode name value` : a query of one name and its value;
* `Query.pairs` : the names and values of a query;
* `Query.member` : what a name is about;
* `Query.text?` : the text that a query gives for a member.
-/
import PageExtract.Http.Percent
import PageExtract.Text.Split

namespace PageExtract.Query

/-- A name or a value as a form writes it. -/
def encodeText (s : String) : String :=
  String.ofList (s.toList.flatMap fun c =>
    if c = ' ' then ['+'] else Percent.encodeChar Percent.isFormSafe c)

/-- A query of one name and its value. -/
def encode (name value : String) : String := encodeText name ++ "=" ++ encodeText value

/-- A name or a value that is written in a query. One that is not well formed is taken as it is,
but for its plus signs. -/
def decodeText (cs : List Char) : String :=
  let spaced := String.ofList (cs.map fun c => if c = '+' then ' ' else c)
  (Percent.decode? spaced).getD spaced

/-- Where the value of a pair begins: at the first equals sign after a closing bracket if there is
one, else at the first equals sign. Answers what is before the sign and what is after it. -/
def cut (cs : List Char) : List Char × List Char :=
  match Text.cutAt [']', '='] cs with
  | some (name, value) => (name ++ [']'], value)
  | none => (Text.cutAt ['='] cs).getD (cs, [])

/-- Brackets that are written as their bytes count as brackets. -/
def withBrackets : List Char → List Char
  | '%' :: '5' :: c :: cs =>
    if c.toLower = 'b' then '[' :: withBrackets cs
    else if c.toLower = 'd' then ']' :: withBrackets cs
    else '%' :: '5' :: withBrackets (c :: cs)
  | c :: cs => c :: withBrackets cs
  | [] => []

/-- How many parts of a query are read; empty ones count, too. -/
def partLimit : Nat := 1000

/-- The names and values of a query, in order. -/
def pairs (query : List Char) : List (String × String) :=
  (((Text.splitOn '&' (withBrackets query)).take partLimit).map cut).map fun p =>
    (decodeText p.1, decodeText p.2)

/-- What is in brackets, after the opening one, and what follows the closing one. Pairs of brackets
inside belong to it; `depth` of them are open. -/
def bracketed? (depth : Nat) : List Char → Option (List Char × List Char)
  | [] => none
  | c :: cs =>
    if c = ']' then
      match depth with
      | 0 => some ([], cs)
      | depth + 1 => (bracketed? depth cs).map fun p => (c :: p.1, p.2)
    else (bracketed? (if c = '[' then depth + 1 else depth) cs).map fun p => (c :: p.1, p.2)

/-- What a name is about: the name of a member, and whether only a part of that member is meant.
The member is named in front of the first bracket, or in brackets if nothing is in front. -/
def member (name : String) : String × Bool :=
  let front := name.toList.takeWhile (· != '[')
  match name.toList.dropWhile (· != '[') with
  | [] => (name, false)
  | _ :: cs =>
    if !front.isEmpty then (String.ofList front, true)
    else match bracketed? 0 cs with
      | some (inside, rest) => (String.ofList inside, rest.contains '[')
      | none => (name, false)

/-- What a query gives for a member. -/
inductive Given where
  | text (s : String)
  /-- A list or a map. -/
  | compound
deriving DecidableEq, Repr, Inhabited

/-- What the values of one name give for its member; `isPart` says whether the name is about a
part of it. -/
def Given.ofValues (isPart : Bool) : List String → Given
  | [s] => if isPart then compound else text s
  | _ => compound

/-- What two names give for the same member: an empty text adds nothing to what the first one
gives. -/
def Given.merge (g : Given) : Given → Given
  | text s => if s.isEmpty then g else compound
  | compound => compound

/-- What the names of a query give for a member, each name after the other. -/
def given (name : String) (query : List Char) : List Given :=
  let own := (pairs query).filter fun p => (member p.1).1 == name
  (own.map (·.1)).eraseDups.map fun key =>
    .ofValues (member key).2 ((own.filter fun p => p.1 == key).map (·.2))

/-- The text that a query gives for a member, unless it gives none, a list or a map. -/
def text? (name : String) (query : List Char) : Option String :=
  match given name query with
  | [] => none
  | g :: gs =>
    match gs.foldl Given.merge g with
    | .text s => some s
    | .compound => none

end PageExtract.Query
