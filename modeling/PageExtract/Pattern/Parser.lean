/-
Reading patterns.

    pattern     := alternative ("|" alternative)*
    alternative := term*
    term        := assertion | atom [quantifier]
    atom        := "." | class | escape | group | literal

A brace that does not begin a quantifier and a closing bracket or brace stand for themselves. A
backslash before a digit is a back reference if the pattern has that many groups, and an octal
escape otherwise.

* `Pattern.parse?` : the pattern that a text spells, if it spells one.
-/
import PageExtract.Pattern.Basic
import PageExtract.Number.Numeral
import PageExtract.Reading

namespace PageExtract.Pattern

/-- What a reader knows of the whole pattern: its groups, with their names. -/
structure Groups where
  names : List (Option (List Nat))

/-- The number of groups. -/
def Groups.count (g : Groups) : Nat := g.names.length

/-- Whether some group has a name. -/
def Groups.named (g : Groups) : Bool := g.names.any (·.isSome)

/-- The index of the group of a name, counted from one. -/
def Groups.index? (g : Groups) (name : List Nat) : Option Nat :=
  (g.names.findIdx? (· == some name)).map (· + 1)

/-- The digits at the front, and what follows them. -/
def takeDigits : List Symbol → List Char × List Symbol
  | .char c :: ss =>
    if c.isDigit then
      let (ds, rest) := takeDigits ss
      (c :: ds, rest)
    else ([], .char c :: ss)
  | ss => ([], ss)

/-- The number in front, if there is one. -/
def takeNat? (ss : List Symbol) : Option (Nat × List Symbol) :=
  match takeDigits ss with
  | ([], _) => none
  | (ds, rest) => some (Numeral.natOfDigits ds, rest)

/-- The greatest bound of a repetition; a larger number means the same. -/
def maxBound : Nat := 2147483647

/-- The bound in front, if there is one. -/
def takeBound? (ss : List Symbol) : Option (Nat × List Symbol) :=
  (takeNat? ss).map fun p => (min p.1 maxBound, p.2)

/-- Bounds in braces, after the opening brace. -/
def bounds? (ss : List Symbol) : Option ((Nat × Option Nat) × List Symbol) :=
  match takeBound? ss with
  | some (n, .char '\x7d' :: rest) => some ((n, some n), rest)
  | some (n, .char ',' :: .char '\x7d' :: rest) => some ((n, none), rest)
  | some (n, .char ',' :: rest) =>
    match takeBound? rest with
    | some (m, .char '\x7d' :: rest') => some ((n, some m), rest')
    | _ => none
  | _ => none

/-- A quantifier, if one comes next: its bounds and what follows them. -/
def quantifier? (ss : List Symbol) : Option ((Nat × Option Nat) × List Symbol) :=
  match ss with
  | .char '*' :: rest => some ((0, none), rest)
  | .char '+' :: rest => some ((1, none), rest)
  | .char '?' :: rest => some ((0, some 1), rest)
  | .char '\x7b' :: rest => bounds? rest
  | _ => none

/-- The value of a digit of base eight. -/
def octal? : Symbol → Option Nat
  | .char c => Numeral.basedDigit? 8 c
  | .half _ => none

/-- The octal escape in front: up to three digits, of a value below 256. -/
def octalEscape? (ss : List Symbol) : Option (Nat × List Symbol) :=
  match ss with
  | a :: rest =>
    match octal? a with
    | none => none
    | some x =>
      match rest with
      | b :: rest' =>
        match octal? b with
        | none => some (x, rest)
        | some y =>
          match rest' with
          | c :: rest'' =>
            match octal? c with
            | some z => if x ≤ 3 then some (64 * x + 8 * y + z, rest'') else some (8 * x + y, rest')
            | none => some (8 * x + y, rest')
          | [] => some (8 * x + y, rest')
      | [] => some (x, rest)
  | [] => none

/-- The predefined class of a letter. -/
def unitClass? : Char → Option UnitClass
  | 'd' => some .digit
  | 'D' => some .notDigit
  | 's' => some .space
  | 'S' => some .notSpace
  | 'w' => some .word
  | 'W' => some .notWord
  | _ => none

/-- The unit of a letter that names a control character. -/
def controlEscape? : Char → Option Nat
  | 'f' => some 12
  | 'n' => some 10
  | 'r' => some 13
  | 't' => some 9
  | 'v' => some 11
  | _ => none

/-- The unit an escaped symbol stands for, after the backslash, where it stands for one unit. A
backslash before `c` stands for itself unless a letter follows; inside a class a digit or an
underscore may follow too. -/
def unitEscape (inClass : Bool) (s : Symbol) (rest : List Symbol) : Nat × List Symbol :=
  match s with
  | .char 'c' =>
    match rest with
    | .char l :: rest' =>
      if l.isAlpha || (inClass && (l.isDigit || l == '_')) then (l.toNat % 32, rest')
      else ('\\'.toNat, s :: rest)
    | _ => ('\\'.toNat, s :: rest)
  | .char 'x' =>
    match hex? 2 rest with
    | some p => p
    | none => (s.unit, rest)
  | .char 'u' =>
    match hex? 4 rest with
    | some p => p
    | none => (s.unit, rest)
  | .char c =>
    match controlEscape? c with
    | some n => (n, rest)
    | none =>
      match octalEscape? (s :: rest) with
      | some p => p
      | none => (s.unit, rest)
  | .half n => (n, rest)

/-- A member of a class that is a single unit or a predefined class, and what follows it. In a
pattern with named groups `\k` is no member. -/
def classAtom? (g : Groups) (ss : List Symbol) : Option (ClassItem × List Symbol) :=
  match ss with
  | [] => none
  | [.char '\\'] => none
  | .char '\\' :: s :: rest =>
    match s with
    | .char 'b' => some (.range 8 8, rest)
    | .char c =>
      match unitClass? c with
      | some k => some (.named k, rest)
      | none =>
        if c == 'k' && g.named then none
        else
          let (n, rest') := unitEscape true s rest
          some (.range n n, rest')
    | .half n => some (.range n n, rest)
  | s :: rest => some (.range s.unit s.unit, rest)

/-- The members that two atoms with a hyphen between them stand for. -/
def rangeItems? (a b : ClassItem) : Option (List ClassItem) :=
  match a, b with
  | .range low _, .range high _ => if low ≤ high then some [.range low high] else none
  | _, _ => some [a, .range '-'.toNat '-'.toNat, b]

/-- The members of a class up to and including its closing bracket. The first argument bounds the
number of steps. -/
def classItems? (g : Groups) : Nat → List Symbol → Option (List ClassItem × List Symbol)
  | 0, _ => none
  | fuel + 1, ss =>
    match ss with
    | .char ']' :: rest => some ([], rest)
    | _ =>
      match classAtom? g ss with
      | none => none
      | some (a, .char '-' :: .char ']' :: rest) =>
        some ([a, .range '-'.toNat '-'.toNat], rest)
      | some (a, .char '-' :: rest) =>
        match classAtom? g rest with
        | none => none
        | some (b, rest') =>
          match rangeItems? a b with
          | none => none
          | some items => (classItems? g fuel rest').map fun p => (items ++ p.1, p.2)
      | some (a, rest) => (classItems? g fuel rest).map fun p => (a :: p.1, p.2)

/-- A character class, after its opening bracket. -/
def class? (g : Groups) (ss : List Symbol) : Option (Pattern × List Symbol) :=
  match ss with
  | .char '^' :: rest =>
    (classItems? g (rest.length + 1) rest).map fun p => (.oneOf true p.1, p.2)
  | _ => (classItems? g (ss.length + 1) ss).map fun p => (.oneOf false p.1, p.2)

/-- A reference to a named group, after the letter `k`. -/
def namedBack? (g : Groups) (ss : List Symbol) : Option (Pattern × List Symbol) :=
  match ss with
  | .char '<' :: rest =>
    match groupName? rest with
    | some (name, rest') => (g.index? name).map (.back ·, rest')
    | none => none
  | _ => none

/-- An escape that is an atom, after the backslash. -/
def escape? (g : Groups) (ss : List Symbol) : Option (Pattern × List Symbol) :=
  match ss with
  | [] => none
  | .half n :: rest => some (.unit n, rest)
  | .char c :: rest =>
    match unitClass? c with
    | some k => some (.oneOf false [.named k], rest)
    | none =>
      if c == 'k' && g.named then namedBack? g rest
      else
        let reference := match takeNat? ss with
          | some (n, rest') => if c != '0' && n ≤ g.count then some (Pattern.back n, rest') else none
          | none => none
        match reference with
        | some p => some p
        | none =>
          let (n, rest') := unitEscape false (.char c) rest
          some (.unit n, rest')

/-- A rest that is known to be shorter. -/
def shorter? {α : Type} (ss : List Symbol) (p : α × List Symbol) :
    Option (Reading Symbol α ss.length) :=
  if h : p.2.length < ss.length then some ⟨p.1, p.2, h⟩ else none

/-- Puts the quantifier that comes next, if one does, around an atom whose groups are those after
`first` up to `last`. -/
def quantified? (atom : Pattern) (first last : Nat) (ss : List Symbol) :
    Option (Pattern × List Symbol) :=
  match quantifier? ss with
  | none => some (atom, ss)
  | some ((least, most), rest) =>
    if most.any (· < least) then none
    else match rest with
      | .char '?' :: rest' => some (.loop atom least most false (first + 1) last, rest')
      | _ => some (.loop atom least most true (first + 1) last, rest)

/-- A pattern and the number of groups opened so far. -/
abbrev Parsed := Pattern × Nat

/-- The ways in which a parenthesis opens. -/
inductive Opening where
  | capture
  | plain
  | look (behind negated : Bool)

/-- How a parenthesis opens, and what follows. -/
def opening? (ss : List Symbol) : Option (Opening × List Symbol) :=
  match ss with
  | .char '?' :: .char ':' :: rest => some (.plain, rest)
  | .char '?' :: .char '=' :: rest => some (.look false false, rest)
  | .char '?' :: .char '!' :: rest => some (.look false true, rest)
  | .char '?' :: .char '<' :: .char '=' :: rest => some (.look true false, rest)
  | .char '?' :: .char '<' :: .char '!' :: rest => some (.look true true, rest)
  | .char '?' :: .char '<' :: rest => (groupName? rest).map fun p => (.capture, p.2)
  | .char '?' :: _ => none
  | _ => some (.capture, ss)

/-- The pattern that a parenthesis and its body make; `n` groups were opened before it. -/
def Opening.close (o : Opening) (n : Nat) (body : Pattern) : Pattern :=
  match o with
  | .capture => .group (n + 1) body
  | .plain => body
  | .look behind negated => .look behind negated body

/-- The number of groups opened at the start of the body. -/
def Opening.count (o : Opening) (n : Nat) : Nat :=
  match o with
  | .capture => n + 1
  | _ => n

/-- Whether a quantifier can follow the closing parenthesis. -/
def Opening.repeats : Opening → Bool
  | .look true _ => false
  | _ => true

/-- A term without a body: an assertion or an atom with its quantifier. -/
def simpleTerm? (g : Groups) (n : Nat) (ss : List Symbol) : Option (Pattern × List Symbol) :=
  match ss with
  | [] => none
  | .char '^' :: rest => some (.start, rest)
  | .char '$' :: rest => some (.finish, rest)
  | .char '\\' :: .char 'b' :: rest => some (.wordEdge false, rest)
  | .char '\\' :: .char 'B' :: rest => some (.wordEdge true, rest)
  | .char '\\' :: rest => (escape? g rest).bind fun p => quantified? p.1 n n p.2
  | .char '.' :: rest => quantified? .any n n rest
  | .char '[' :: rest => (class? g rest).bind fun p => quantified? p.1 n n p.2
  | s :: rest => if (quantifier? ss).isSome then none else quantified? (.unit s.unit) n n rest

mutual

/-- Reads alternatives, up to a closing parenthesis or the end. -/
def alternatives? (g : Groups) (n : Nat) (ss : List Symbol) :
    Option (Reading Symbol Parsed (ss.length + 1)) := do
  let a ← terms? g n ss
  match h : a.rest with
  | .char '|' :: rest =>
    let b ← alternatives? g a.value.2 rest
    some ⟨(.alt a.value.1 b.value.1, b.value.2), b.rest, by
      have := a.short; have := b.short; grind⟩
  | _ => some a
termination_by 4 * ss.length + 2
decreasing_by
  · omega
  · have := a.short; grind

/-- Reads terms, up to a bar, a closing parenthesis or the end. -/
def terms? (g : Groups) (n : Nat) (ss : List Symbol) :
    Option (Reading Symbol Parsed (ss.length + 1)) :=
  match ss with
  | [] => some ⟨(.empty, n), [], by simp⟩
  | .char '|' :: rest => some ⟨(.empty, n), .char '|' :: rest, by simp⟩
  | .char ')' :: rest => some ⟨(.empty, n), .char ')' :: rest, by simp⟩
  | s :: rest => do
    let t ← term? g n (s :: rest)
    let more ← terms? g t.value.2 t.rest
    some ⟨(.seq t.value.1 more.value.1, more.value.2), more.rest, by
      have := t.short; have := more.short; omega⟩
termination_by 4 * ss.length + 1
decreasing_by
  · grind
  · have := t.short; grind

/-- Reads one term. -/
def term? (g : Groups) (n : Nat) (ss : List Symbol) :
    Option (Reading Symbol Parsed ss.length) :=
  match ss with
  | .char '(' :: rest => do
    let o ← opening? rest
    if _h : o.2.length ≤ rest.length then
      let body ← alternatives? g (o.1.count n) o.2
      match body.rest with
      | .char ')' :: rest' =>
        let closed := o.1.close n body.value.1
        let m := body.value.2
        if o.1.repeats then
          let q ← quantified? closed n m rest'
          shorter? (.char '(' :: rest) ((q.1, m), q.2)
        else shorter? (.char '(' :: rest) ((closed, m), rest')
      | _ => none
    else none
  | ss => (simpleTerm? g n ss).bind fun p => shorter? ss ((p.1, n), p.2)
termination_by 4 * ss.length
decreasing_by grind

end

/-- The pattern that symbols spell. -/
def ofSymbols? (ss : List Symbol) : Option Pattern :=
  let g : Groups := ⟨groupNames false ss⟩
  let names := g.names.filterMap id
  if names.eraseDups.length != names.length then none
  else match alternatives? g 0 ss with
    | some r => if r.rest.isEmpty then some r.value.1 else none
    | none => none

/-- The pattern that a text spells. -/
def parse? (s : String) : Option Pattern := ofSymbols? (symbols s)

end PageExtract.Pattern
