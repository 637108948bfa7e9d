/-
Formulas of calculated fields.

    expr   := term (("+" | "-") term)*
    term   := factor (("*" | "/") factor)*
    factor := number | "sum" "(" path ")" | "(" expr ")" | "-" factor
    path   := name ["[" "]"] ("." name ["[" "]"])*

Operators of one level associate to the left, and a summed path has at least one `[]`.

* `Formula` : the trees;
* `Formula.parse` : the tree of a source;
* `Formula.parseExpr`, `parseTerm`, `parseFactor` : one reader for each rule.
-/
import PageExtract.Expr.Cursor
import PageExtract.Record.Path

namespace PageExtract

/-- The operations on two numbers. -/
inductive FormulaOp where
  | add
  | sub
  | mul
  | div
deriving DecidableEq, Repr, Inhabited

/-- A formula. -/
inductive Formula where
  | num (value : Float)
  | sum (path : Path)
  | neg (operand : Formula)
  | bin (op : FormulaOp) (left right : Formula)
deriving DecidableEq, Repr, Inhabited

namespace Formula

/-- Reads a path, level by level. -/
def parsePath (stop : Token) (ts : List Token) :
    Except ExprError (Reading Token Path ts.length) := do
  let name ← Token.expectName stop ts
  let many := Token.bracketsNext name.rest
  let rest := if many then name.rest.drop 2 else name.rest
  have hrest : rest.length < ts.length := by have := name.short; grind
  if Token.opNext "." rest then
    let more ← parsePath stop (rest.drop 1)
    return ⟨⟨name.value.text, many⟩ :: more.value, more.rest, by have := more.short; grind⟩
  else
    return ⟨[⟨name.value.text, many⟩], rest, hrest⟩
termination_by ts.length
decreasing_by grind

/-- Reads the path of a sum, which has at least one `[]`. -/
def parseSumPath (stop : Token) (ts : List Token) :
    Except ExprError (Reading Token Path ts.length) := do
  let p ← parsePath stop ts
  if p.value.any (·.many) then return p
  else throw ⟨.sumWithoutSequence, (Token.next stop ts).pos⟩

/-- The operation between terms that a token stands for. -/
def sumOp? (t : Token) : Option FormulaOp :=
  if t.isOp "+" then some .add else if t.isOp "-" then some .sub else none

/-- The operation between factors that a token stands for. -/
def productOp? (t : Token) : Option FormulaOp :=
  if t.isOp "*" then some .mul else if t.isOp "/" then some .div else none

mutual

/-- Reads terms joined by `+` and `-`. -/
def parseExpr (stop : Token) (ts : List Token) :
    Except ExprError (Reading Token Formula ts.length) := do
  let t ← parseTerm stop ts
  let e ← parseExprTail stop t.value t.rest
  return e.widen t.short
termination_by 8 * ts.length + 4
decreasing_by
  · omega
  · have := t.short; omega

/-- Reads more terms after `left`. -/
def parseExprTail (stop : Token) (left : Formula) (ts : List Token) :
    Except ExprError (Reading Token Formula (ts.length + 1)) :=
  match ts with
  | [] => .ok ⟨left, [], Nat.zero_lt_one⟩
  | o :: rest =>
    match sumOp? o with
    | none => .ok ⟨left, o :: rest, Nat.lt_succ_self _⟩
    | some op => do
      let t ← parseTerm stop rest
      let e ← parseExprTail stop (.bin op left t.value) t.rest
      return e.widen (Nat.succ_le_succ (Nat.le_of_lt (Nat.lt_succ_of_lt t.short)))
termination_by 8 * ts.length
decreasing_by
  · grind
  · have := t.short; grind

/-- Reads factors joined by `*` and `/`. -/
def parseTerm (stop : Token) (ts : List Token) :
    Except ExprError (Reading Token Formula ts.length) := do
  let f ← parseFactor stop ts
  let t ← parseTermTail stop f.value f.rest
  return t.widen f.short
termination_by 8 * ts.length + 3
decreasing_by
  · omega
  · have := f.short; omega

/-- Reads more factors after `left`. -/
def parseTermTail (stop : Token) (left : Formula) (ts : List Token) :
    Except ExprError (Reading Token Formula (ts.length + 1)) :=
  match ts with
  | [] => .ok ⟨left, [], Nat.zero_lt_one⟩
  | o :: rest =>
    match productOp? o with
    | none => .ok ⟨left, o :: rest, Nat.lt_succ_self _⟩
    | some op => do
      let f ← parseFactor stop rest
      let t ← parseTermTail stop (.bin op left f.value) f.rest
      return t.widen (Nat.succ_le_succ (Nat.le_of_lt (Nat.lt_succ_of_lt f.short)))
termination_by 8 * ts.length
decreasing_by
  · grind
  · have := f.short; grind

/-- Reads a number, a sum, a formula in parentheses or a negated factor. -/
def parseFactor (stop : Token) (ts : List Token) :
    Except ExprError (Reading Token Formula ts.length) :=
  match ts with
  | [] => .error ⟨.unexpected stop, stop.pos⟩
  | t :: rest =>
    if t.isOp "-" then do
      let f ← parseFactor stop rest
      return (f.map neg).widen (by simp)
    else if t.isOp "(" then do
      let e ← parseExpr stop rest
      let c ← Token.expectOp stop ")" e.rest
      return ⟨e.value, c.rest, by have := e.short; have := c.short; grind⟩
    else if t.kind = .num then
      .ok ⟨.num (Numeral.read t.text.toList).toFloat, rest, length_lt_cons t rest⟩
    else if t.isWord "sum" then do
      let o ← Token.expectOp stop "(" rest
      let p ← parseSumPath stop o.rest
      let c ← Token.expectOp stop ")" p.rest
      return ⟨.sum p.value, c.rest, by
        have := o.short; have := p.short; have := c.short; grind⟩
    else .error ⟨.unexpected t, t.pos⟩
termination_by 8 * ts.length + 2
decreasing_by all_goals grind

end

/-- The formula that a list of tokens spells, `stop` standing for their end. -/
def ofTokens (stop : Token) (ts : List Token) : Except ExprError Formula := do
  let e ← parseExpr stop ts
  match e.rest with
  | [] => return e.value
  | t :: _ => throw ⟨.unexpected t, t.pos⟩

/-- The formula that a source spells. -/
def parse (source : String) : Except ExprError Formula := do
  ofTokens (endToken source) (← tokens source)

end Formula

end PageExtract
