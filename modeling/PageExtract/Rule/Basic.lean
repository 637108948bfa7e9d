/-
Rules over extracted data.

A rule is an expression over the data: literals, lists and maps, paths into the data, helper
functions, logic, arithmetic and comparison chains. `Rule` is its syntax tree.

* `Rule`, `PathOp` : expressions, and the steps of a path;
* `Rule.pathLabel` : how messages name a path or the beginning of one;
* `Helper`, `LogicOp`, `ArithOp`, `CompareOp` : the functions and operators, with their spelling.
-/
import PageExtract.Value.Json

namespace PageExtract

/-- The functions a rule can call. -/
inductive Helper where
  | sum
  | len
  | min
  | max
  | all
  | any
  | abs
  | round
deriving DecidableEq, Repr, Inhabited

/-- The connectives. -/
inductive LogicOp where
  | and
  | or
deriving DecidableEq, Repr, Inhabited

/-- The operations on two numbers. -/
inductive ArithOp where
  | add
  | sub
  | mul
  | div
  | mod
deriving DecidableEq, Repr, Inhabited

/-- The comparisons. -/
inductive CompareOp where
  | eq
  | ne
  | lt
  | le
  | gt
  | ge
  | isIn
  | notIn
  | same
  | notSame
deriving DecidableEq, Repr, Inhabited

namespace Helper

/-- The name a function is called by. -/
def name : Helper → String
  | sum => "sum"
  | len => "len"
  | min => "min"
  | max => "max"
  | all => "all"
  | any => "any"
  | abs => "abs"
  | round => "round"

/-- The functions. -/
def every : List Helper := [sum, len, min, max, all, any, abs, round]

/-- The function of a name. -/
def ofName? (s : String) : Option Helper := every.find? fun h => h.name == s

end Helper

/-- The word of a connective. -/
def LogicOp.text : LogicOp → String
  | and => "and"
  | or => "or"

/-- The sign of an operation. -/
def ArithOp.text : ArithOp → String
  | add => "+"
  | sub => "-"
  | mul => "*"
  | div => "/"
  | mod => "%"

/-- The sign or the words of a comparison. -/
def CompareOp.text : CompareOp → String
  | eq => "=="
  | ne => "!="
  | lt => "<"
  | le => "<="
  | gt => ">"
  | ge => ">="
  | isIn => "in"
  | notIn => "not in"
  | same => "is"
  | notSame => "is not"

mutual

/-- An expression over the data. -/
inductive Rule (ν : Type) where
  | lit (value : Scalar ν)
  | list (items : List (Rule ν))
  | dict (entries : List (Rule ν × Rule ν))
  /-- The data as a whole. -/
  | root
  | path (base : Rule ν) (ops : List (PathOp ν))
  | call (fn : Helper) (args : List (Rule ν))
  | not (operand : Rule ν)
  | neg (operand : Rule ν)
  | logic (op : LogicOp) (left right : Rule ν)
  | arith (op : ArithOp) (left right : Rule ν)
  /-- A chain of comparisons, each operand compared with the one before. -/
  | compare (first : Rule ν) (links : List (CompareOp × Rule ν))

/-- A step of a path. -/
inductive PathOp (ν : Type) where
  /-- The member of a name. -/
  | member (name : String)
  /-- The item at a position or the member of a name, given by an expression. -/
  | index (key : Rule ν)
  /-- Every item of a list; the rest of the path is applied to each. -/
  | project
  /-- The member of a name, with a value to take when it is absent. -/
  | get (args : List (Rule ν))

end

instance {ν : Type} : Inhabited (Rule ν) := ⟨.root⟩

variable {ν : Type} [Numeric ν]

/-- How messages name one step of a path. -/
def PathOp.label : PathOp ν → String
  | .member name => "." ++ name
  | .index (.lit v) => "[" ++ v.toValue.compact ++ "]"
  | .index _ => "[...]"
  | .project => "[]"
  | .get _ => ".get(...)"

/-- How messages name where a path starts. -/
def Rule.baseLabel : Rule ν → String
  | .root => "data"
  | _ => "(value)"

/-- How messages name a path. -/
def Rule.pathLabel (base : Rule ν) (ops : List (PathOp ν)) : String :=
  ops.foldl (fun l op => l ++ op.label) base.baseLabel

end PageExtract
