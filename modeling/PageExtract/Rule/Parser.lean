/-
Reading rules.

Levels bind in this order, the loosest first: `or`, `and`, `not`, comparisons, `+ -`, `* / %`,
signs, and the steps of a path. Comparisons form chains, the other operators associate to the
left.

* `Rule.parse` : the rule that a source spells;
* `Rule.parseOr`, `Rule.parseAnd`, … : one reader for each level.
-/
import PageExtract.Expr.Cursor
import PageExtract.Rule.Basic

namespace PageExtract.Rule

/-- The value of a word that stands for one. -/
def wordValue? (w : String) : Option (Scalar Float) :=
  if w == "true" || w == "True" then some (.bool true)
  else if w == "false" || w == "False" then some (.bool false)
  else if w == "null" || w == "None" then some .null
  else none

/-- The comparison a sign stands for. -/
def signCompare? (t : Token) : Option CompareOp :=
  if t.kind = .op then
    [CompareOp.eq, .ne, .lt, .le, .gt, .ge].find? fun o => o.text == t.text
  else none

/-- Reads a comparison operator of one or two tokens, if one comes next. -/
def compareOp? (ts : List Token) : Option (Reading Token CompareOp ts.length) :=
  match ts with
  | [] => none
  | t :: rest =>
    match signCompare? t with
    | some o => some ⟨o, rest, length_lt_cons t rest⟩
    | none =>
      if t.isWord "in" then some ⟨.isIn, rest, length_lt_cons t rest⟩
      else if t.isWord "not" && Token.wordNext "in" rest then
        some ⟨.notIn, rest.drop 1, length_drop_lt_cons t rest⟩
      else if t.isWord "is" then
        if Token.wordNext "not" rest then
          some ⟨.notSame, rest.drop 1, length_drop_lt_cons t rest⟩
        else some ⟨.same, rest, length_lt_cons t rest⟩
      else none

/-- The operation between terms that a token stands for. -/
def sumOp? (t : Token) : Option ArithOp :=
  if t.isOp "+" then some .add else if t.isOp "-" then some .sub else none

/-- The operation between factors that a token stands for. -/
def productOp? (t : Token) : Option ArithOp :=
  if t.isOp "*" then some .mul
  else if t.isOp "/" then some .div
  else if t.isOp "%" then some .mod
  else none

/-- The rules a reader answers. -/
abbrev Parsed (n : Nat) := Except ExprError (Reading Token (Rule Float) n)

mutual

/-- Reads operands joined by `or`. -/
def parseOr (stop : Token) (ts : List Token) : Parsed ts.length := do
  let l ← parseAnd stop ts
  let r ← parseOrTail stop l.value l.rest
  return r.widen l.short
termination_by 16 * ts.length + 9
decreasing_by
  · omega
  · have := l.short; omega

/-- Reads more operands of `or` after `left`. -/
def parseOrTail (stop : Token) (left : Rule Float) (ts : List Token) : Parsed (ts.length + 1) :=
  match ts with
  | [] => .ok ⟨left, [], by simp⟩
  | t :: rest =>
    if t.isWord "or" then do
      let r ← parseAnd stop rest
      let e ← parseOrTail stop (.logic .or left r.value) r.rest
      return e.widen (by have := r.short; grind)
    else .ok ⟨left, t :: rest, by simp⟩
termination_by 16 * ts.length
decreasing_by
  · grind
  · have := r.short; grind

/-- Reads operands joined by `and`. -/
def parseAnd (stop : Token) (ts : List Token) : Parsed ts.length := do
  let l ← parseNot stop ts
  let r ← parseAndTail stop l.value l.rest
  return r.widen l.short
termination_by 16 * ts.length + 8
decreasing_by
  · omega
  · have := l.short; omega

/-- Reads more operands of `and` after `left`. -/
def parseAndTail (stop : Token) (left : Rule Float) (ts : List Token) : Parsed (ts.length + 1) :=
  match ts with
  | [] => .ok ⟨left, [], by simp⟩
  | t :: rest =>
    if t.isWord "and" then do
      let r ← parseNot stop rest
      let e ← parseAndTail stop (.logic .and left r.value) r.rest
      return e.widen (by have := r.short; grind)
    else .ok ⟨left, t :: rest, by simp⟩
termination_by 16 * ts.length
decreasing_by
  · grind
  · have := r.short; grind

/-- Reads a comparison chain, perhaps negated. -/
def parseNot (stop : Token) (ts : List Token) : Parsed ts.length :=
  match ts with
  | [] => parseComparison stop []
  | t :: rest =>
    if t.isWord "not" then do
      let r ← parseNot stop rest
      return (r.map .not).widen (by simp)
    else parseComparison stop (t :: rest)
termination_by 16 * ts.length + 7
decreasing_by all_goals grind

/-- Reads a comparison chain. -/
def parseComparison (stop : Token) (ts : List Token) : Parsed ts.length := do
  let first ← parseArith stop ts
  let links ← parseLinks stop first.rest
  let r : Rule Float :=
    if links.value.isEmpty then first.value else .compare first.value links.value
  return ⟨r, links.rest, by have := first.short; have := links.short; omega⟩
termination_by 16 * ts.length + 6
decreasing_by
  · omega
  · have := first.short; omega

/-- Reads the links of a chain. -/
def parseLinks (stop : Token) (ts : List Token) :
    Except ExprError (Reading Token (List (CompareOp × Rule Float)) (ts.length + 1)) :=
  match compareOp? ts with
  | none => .ok ⟨[], ts, by simp⟩
  | some o => do
    let r ← parseArith stop o.rest
    let links ← parseLinks stop r.rest
    return ⟨(o.value, r.value) :: links.value, links.rest, by
      have := o.short; have := r.short; have := links.short; omega⟩
termination_by 16 * ts.length
decreasing_by
  · have := o.short; omega
  · have := o.short; have := r.short; omega

/-- Reads terms joined by `+` and `-`. -/
def parseArith (stop : Token) (ts : List Token) : Parsed ts.length := do
  let l ← parseTerm stop ts
  let r ← parseArithTail stop l.value l.rest
  return r.widen l.short
termination_by 16 * ts.length + 5
decreasing_by
  · omega
  · have := l.short; omega

/-- Reads more terms after `left`. -/
def parseArithTail (stop : Token) (left : Rule Float) (ts : List Token) : Parsed (ts.length + 1) :=
  match ts with
  | [] => .ok ⟨left, [], by simp⟩
  | t :: rest =>
    match sumOp? t with
    | none => .ok ⟨left, t :: rest, by simp⟩
    | some op => do
      let r ← parseTerm stop rest
      let e ← parseArithTail stop (.arith op left r.value) r.rest
      return e.widen (by have := r.short; grind)
termination_by 16 * ts.length
decreasing_by
  · grind
  · have := r.short; grind

/-- Reads factors joined by `*`, `/` and `%`. -/
def parseTerm (stop : Token) (ts : List Token) : Parsed ts.length := do
  let l ← parseSigned stop ts
  let r ← parseTermTail stop l.value l.rest
  return r.widen l.short
termination_by 16 * ts.length + 4
decreasing_by
  · omega
  · have := l.short; omega

/-- Reads more factors after `left`. -/
def parseTermTail (stop : Token) (left : Rule Float) (ts : List Token) : Parsed (ts.length + 1) :=
  match ts with
  | [] => .ok ⟨left, [], by simp⟩
  | t :: rest =>
    match productOp? t with
    | none => .ok ⟨left, t :: rest, by simp⟩
    | some op => do
      let r ← parseSigned stop rest
      let e ← parseTermTail stop (.arith op left r.value) r.rest
      return e.widen (by have := r.short; grind)
termination_by 16 * ts.length
decreasing_by
  · grind
  · have := r.short; grind

/-- Reads an operand with any number of signs. A plus sign leaves no trace. -/
def parseSigned (stop : Token) (ts : List Token) : Parsed ts.length :=
  match ts with
  | [] => parseTrailed stop []
  | t :: rest =>
    if t.isOp "-" then do
      let r ← parseSigned stop rest
      return (r.map .neg).widen (by simp)
    else if t.isOp "+" then do
      let r ← parseSigned stop rest
      return r.widen (by simp)
    else parseTrailed stop (t :: rest)
termination_by 16 * ts.length + 3
decreasing_by all_goals grind

/-- Reads an operand and the steps of a path after it. -/
def parseTrailed (stop : Token) (ts : List Token) : Parsed ts.length := do
  let base ← parsePrimary stop ts
  let ops ← parseOps stop base.rest
  let r : Rule Float := if ops.value.isEmpty then base.value else .path base.value ops.value
  return ⟨r, ops.rest, by have := base.short; have := ops.short; omega⟩
termination_by 16 * ts.length + 2
decreasing_by
  · omega
  · have := base.short; omega

/-- Reads the steps of a path. -/
def parseOps (stop : Token) (ts : List Token) :
    Except ExprError (Reading Token (List (PathOp Float)) (ts.length + 1)) :=
  match ts with
  | [] => .ok ⟨[], [], by simp⟩
  | t :: rest =>
    if t.isOp "." then do
      let name ← Token.expectName stop rest
      if Token.opNext "(" name.rest then
        if name.value.text == "get" then
          let args ← parseMany stop ")" (name.rest.drop 1)
          let ops ← parseOps stop args.rest
          return ⟨.get args.value :: ops.value, ops.rest, by
            have := name.short; have := args.short; have := ops.short; grind⟩
        else throw ⟨.unknownMethod name.value.text, name.value.pos⟩
      else
        let ops ← parseOps stop name.rest
        return ⟨.member name.value.text :: ops.value, ops.rest, by
          have := name.short; have := ops.short; grind⟩
    else if t.isOp "[" then
      if Token.opNext "]" rest then do
        let ops ← parseOps stop (rest.drop 1)
        return ⟨.project :: ops.value, ops.rest, by have := ops.short; grind⟩
      else do
        let key ← parseOr stop rest
        let c ← Token.expectOp stop "]" key.rest
        let ops ← parseOps stop c.rest
        return ⟨.index key.value :: ops.value, ops.rest, by
          have := key.short; have := c.short; have := ops.short; grind⟩
    else .ok ⟨[], t :: rest, by simp⟩
termination_by 16 * ts.length + 1
decreasing_by
  · have := name.short; grind
  · have := name.short; have := args.short; grind
  · have := name.short; grind
  · grind
  · grind
  · have := key.short; have := c.short; grind

/-- Reads expressions separated by commas, up to and including a closing token. A comma may stand
before the closing token. -/
def parseMany (stop : Token) (close : String) (ts : List Token) :
    Except ExprError (Reading Token (List (Rule Float)) (ts.length + 1)) :=
  if Token.opNext close ts then .ok ⟨[], ts.drop 1, by grind⟩
  else do
    let e ← parseOr stop ts
    if Token.opNext "," e.rest then
      let es ← parseMany stop close (e.rest.drop 1)
      return ⟨e.value :: es.value, es.rest, by have := e.short; have := es.short; grind⟩
    else
      let c ← Token.expectOp stop close e.rest
      return ⟨[e.value], c.rest, by have := e.short; have := c.short; grind⟩
termination_by 16 * ts.length + 10
decreasing_by
  · omega
  · have := e.short; grind

/-- Reads the entries of a map up to and including the closing brace. -/
def parseEntries (stop : Token) (ts : List Token) :
    Except ExprError (Reading Token (List (Rule Float × Rule Float)) (ts.length + 1)) :=
  if Token.opNext "\x7d" ts then .ok ⟨[], ts.drop 1, by grind⟩
  else do
    let k ← parseOr stop ts
    let c ← Token.expectOp stop ":" k.rest
    let v ← parseOr stop c.rest
    if Token.opNext "," v.rest then
      let es ← parseEntries stop (v.rest.drop 1)
      return ⟨(k.value, v.value) :: es.value, es.rest, by
        have := k.short; have := c.short; have := v.short; have := es.short; grind⟩
    else
      let d ← Token.expectOp stop "\x7d" v.rest
      return ⟨[(k.value, v.value)], d.rest, by
        have := k.short; have := c.short; have := v.short; have := d.short; grind⟩
termination_by 16 * ts.length + 10
decreasing_by
  · omega
  · have := k.short; have := c.short; omega
  · have := k.short; have := c.short; have := v.short; grind

/-- Reads a literal, the data, a call, a rule in parentheses, a list or a map. -/
def parsePrimary (stop : Token) (ts : List Token) : Parsed ts.length :=
  match ts with
  | [] => .error ⟨.unexpected stop, stop.pos⟩
  | t :: rest =>
    match t.kind with
    | .num => .ok ⟨.lit (.num (Numeral.read t.text.toList).toFloat), rest, length_lt_cons t rest⟩
    | .str => .ok ⟨.lit (.str t.text), rest, length_lt_cons t rest⟩
    | .ident =>
      match wordValue? t.text with
      | some v => .ok ⟨.lit v, rest, length_lt_cons t rest⟩
      | none =>
        if t.text == "data" then .ok ⟨.root, rest, length_lt_cons t rest⟩
        else if Token.opNext "(" rest then
          match Helper.ofName? t.text with
          | some fn => do
            let args ← parseMany stop ")" (rest.drop 1)
            return (args.map (.call fn)).widen (length_drop_lt_cons t rest)
          | none => .error ⟨.unknownFunction t.text, t.pos⟩
        else .error ⟨.unknownName t.text, t.pos⟩
    | .op =>
      if t.text == "(" then do
        let e ← parseOr stop rest
        let c ← Token.expectOp stop ")" e.rest
        return ((c.map fun _ => e.value).widen (Nat.le_of_lt e.short)).widen (Nat.le_succ _)
      else if t.text == "[" then do
        let es ← parseMany stop "]" rest
        return (es.map .list).widen (length_lt_cons t rest)
      else if t.text == "\x7b" then do
        let es ← parseEntries stop rest
        return (es.map .dict).widen (length_lt_cons t rest)
      else .error ⟨.unexpected t, t.pos⟩
    | .eof => .error ⟨.unexpected t, t.pos⟩
termination_by 16 * ts.length
decreasing_by all_goals grind

end

/-- The rule that a list of tokens spells, `stop` standing for their end. -/
def ofTokens (stop : Token) (ts : List Token) : Except ExprError (Rule Float) := do
  let e ← parseOr stop ts
  match e.rest with
  | [] => return e.value
  | t :: _ => throw ⟨.unexpected t, t.pos⟩

/-- The rule that a source spells. -/
def parse (source : String) : Except ExprError (Rule Float) := do
  ofTokens (endToken source) (← tokens source)

end PageExtract.Rule
