/-
Evaluating formulas on records.

* `Formula.eval` : the value of a formula and the remarks made on the way;
* `Formula.sumPath` : the sum over a path, where what is not a number counts as zero and is
  remarked upon.
-/
import PageExtract.Expr.Formula
import PageExtract.Record.Transform

namespace PageExtract.Formula

/-- The number a value counts as in a sum: a number itself, or text that spells one. -/
def summand? : Option (Scalar Float) → Option Float
  | some (.num n) => some n
  | some (.str s) => Transform.numberOf? s
  | _ => none

/-- The sum of the numbers among some values, in order. -/
def total (vs : List (Option (Scalar Float))) : Float :=
  vs.foldl (fun acc v => match summand? v with
    | some n => acc + n
    | none => acc) 0.0

/-- How many values are not numbers. -/
def skipped (vs : List (Option (Scalar Float))) : Nat :=
  (vs.filter fun v => (summand? v).isNone).length

/-- The sum over a path, with a remark when a level is missing or a value is not a number. -/
def sumPath (tree : Record Float) (path : Path) : Float × List String :=
  let found := Record.collect tree path
  let name := path.text
  match found.missing with
  | some level => (0.0, [s!"sum({name}): '{level}' not found, using 0"])
  | none =>
    let count := skipped found.values
    (total found.values,
      if count = 0 then [] else [s!"sum({name}): {count} non-numeric value(s) treated as 0"])

/-- An operation on two numbers. -/
def apply (op : FormulaOp) (x y : Float) : Float :=
  match op with
  | .add => x + y
  | .sub => x - y
  | .mul => x * y
  | .div => x / y

/-- The value of a formula on a tree, and the remarks made on the way. -/
def eval (tree : Record Float) : Formula → Float × List String
  | num value => (value, [])
  | sum path => sumPath tree path
  | neg operand =>
    let (x, remarks) := eval tree operand
    (-x, remarks)
  | bin op left right =>
    let (x, remarks) := eval tree left
    let (y, more) := eval tree right
    (apply op x y, remarks ++ more)

end PageExtract.Formula
