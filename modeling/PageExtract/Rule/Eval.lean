/-
Evaluating rules.

* `Rule.eval`, `Rule.holds` : the value of a rule on data and whether it counts as true, or the
  reason why it has none;
* `Rule.applyOps` : following the steps of a path, with `applyOps_nil` at its end;
* `evalOn_call`, `evalOn_arith` : calls and operations by the values of their parts;
* `Helper.apply`, `ArithOp.apply`, `CompareOp.holds` : functions, operations and single
  comparisons;
* `RuleError` : the reasons, with `RuleError.message`.
-/
import PageExtract.Rule.Basic
import PageExtract.Rule.Datum
import PageExtract.Text.Find

namespace PageExtract

/-- The reasons why a rule has no value. -/
inductive RuleError where
  | missingField (label : String)
  | incomparable (op : String) (left right : Kind)
  | noContainer (item container : Kind)
  | operands (op : String) (left right : Kind)
  | divisionByZero
  | listExpected (fn : String) (given : Kind)
  | numberExpected (fn : String) (given : Kind)
  | arity (fn : String) (least most given : Nat)
  | noArguments (fn : String)
  | emptyList (fn : String)
  | noLength (given : Kind)
  | noMember (label name : String) (given : Kind)
  | noIndex (label : String) (given key : Kind)
  | getArity (given : Nat)
  | getExpectsMap (label : String) (given : Kind)
  | noProjection (label : String) (given : Kind)
  | keyExpected (given : Kind)
  | negation (given : Kind)
deriving DecidableEq, Repr, Inhabited

/-- How many arguments a function takes, in words. -/
def arityText (least most : Nat) : String :=
  if least = most then toString least else s!"{least} to {most}"

/-- The words of an error. -/
def RuleError.message : RuleError → String
  | missingField label => s!"Missing field '{label}'"
  | incomparable op l r => "'" ++ op ++ "' not supported between " ++ l.text ++ " and " ++ r.text
  | noContainer i c => "'in' not supported between " ++ i.text ++ " and " ++ c.text
  | operands op l r => "unsupported operand types for " ++ op ++ ": " ++ l.text ++ " and " ++ r.text
  | divisionByZero => "division by zero"
  | listExpected fn k => s!"{fn}() expects a list, got " ++ k.text
  | numberExpected fn k => s!"{fn}() expects a number, got " ++ k.text
  | arity fn least most given =>
    s!"{fn}() takes " ++ arityText least most ++ s!" argument(s), got {given}"
  | noArguments fn => s!"{fn}() takes at least 1 argument"
  | emptyList fn => s!"{fn}() of an empty list"
  | noLength k => "len() of " ++ k.text
  | noMember label name k => s!"{label}: cannot read '{name}' of " ++ k.text
  | noIndex label k key => s!"{label}: cannot index " ++ k.text ++ " with " ++ key.text
  | getArity given => s!"get() takes 1 or 2 arguments, got {given}"
  | getExpectsMap label k => s!"{label}: get() needs a map, got " ++ k.text
  | noProjection label k => s!"{label}: expected a list, got " ++ k.text
  | keyExpected k => "map keys must be strings, got " ++ k.text
  | negation k => "bad operand type for unary -: " ++ k.text

variable {ν : Type} [Numeric ν]

/-- The number a function is given. -/
def Datum.numberArg (fn : String) (d : Datum ν) : Except RuleError ν :=
  match d.number? with
  | some n => .ok n
  | none => .error (.numberExpected fn d.kind)

/-- The list a function is given. -/
def Datum.listArg (fn : String) (d : Datum ν) : Except RuleError (List (Datum ν)) :=
  match d with
  | .list _ xs => .ok xs
  | _ => .error (.listExpected fn d.kind)

/-- How far `a` is above `b`: the difference of two numbers, or the order of two texts as -1, 0
or 1. -/
def Datum.difference (op : String) (a b : Datum ν) : Except RuleError ν :=
  match a.number?, b.number? with
  | some n, some m => .ok (n - m)
  | _, _ =>
    match a, b with
    | .str s, .str t =>
      .ok (if Text.lt16 s t then -1.0 else if Text.lt16 t s then 1.0 else 0.0)
    | _, _ => .error (.incomparable op a.kind b.kind)

/-- Whether a container holds an item. -/
def Datum.contains (container item : Datum ν) : Except RuleError Bool :=
  match container, item with
  | .list _ xs, _ => .ok (xs.any fun x => x.equals item)
  | .map _ ms, .str k => .ok (Members.has ms k)
  | .map _ _, _ => .ok false
  | .str s, .str t => .ok (Text.contains s t)
  | _, _ => .error (.noContainer item.kind container.kind)

/-- Whether one comparison holds. -/
def CompareOp.holds (op : CompareOp) (a b : Datum ν) : Except RuleError Bool :=
  match op with
  | .eq => .ok (a.equals b)
  | .ne => .ok !(a.equals b)
  | .lt => return decide ((← Datum.difference op.text a b) < 0.0)
  | .le => return decide ((← Datum.difference op.text a b) ≤ 0.0)
  | .gt => return decide ((0.0 : ν) < (← Datum.difference op.text a b))
  | .ge => return decide ((0.0 : ν) ≤ (← Datum.difference op.text a b))
  | .isIn => Datum.contains b a
  | .notIn => return !(← Datum.contains b a)
  | .same => .ok (a.isSame b)
  | .notSame => .ok !(a.isSame b)

/-- An operation on two numbers. -/
def ArithOp.onNumbers (op : ArithOp) (x y : ν) : Except RuleError ν :=
  match op with
  | .add => .ok (x + y)
  | .sub => .ok (x - y)
  | .mul => .ok (x * y)
  | .div => if y == 0.0 then .error .divisionByZero else .ok (x / y)
  | .mod => if y == 0.0 then .error .divisionByZero else .ok (Numeric.flooredMod x y)

/-- An operation; texts and lists can be added too. -/
def ArithOp.apply (op : ArithOp) (a b : Datum ν) : Except RuleError (Datum ν) :=
  match op, a, b with
  | .add, .str s, .str t => .ok (.str (Text.joined (s ++ t)))
  | .add, .list _ xs, .list _ ys => .ok (.fresh (xs ++ ys))
  | _, _, _ =>
    match a.number?, b.number? with
    | some x, some y => do return .num (← op.onNumbers x y)
    | _, _ => .error (.operands op.text a.kind b.kind)

/-- The length of a text, a list or a map. -/
def Datum.lengthOf (d : Datum ν) : Except RuleError (Datum ν) :=
  let count (n : Nat) : Datum ν := .num (Numeric.ofInt n)
  match d with
  | .str s => .ok (count (Text.length16 s))
  | .list _ xs => .ok (count xs.length)
  | .map _ ms => .ok (count ms.length)
  | _ => .error (.noLength d.kind)

/-- The sum of numbers, from a start. -/
def Datum.sumFrom (start : ν) : List (Datum ν) → Except RuleError ν
  | [] => .ok start
  | d :: ds => do Datum.sumFrom (start + (← Datum.numberArg "sum" d)) ds

/-- The least or the greatest of some values, the first of several. -/
def Helper.extreme (fn : Helper) (best : Datum ν) : List (Datum ν) → Except RuleError (Datum ν)
  | [] => .ok best
  | d :: ds => do
    let gap ← Datum.difference fn.name d best
    let better := if fn = .min then gap < 0.0 else 0.0 < gap
    Helper.extreme fn (if better then d else best) ds

/-- The least or the greatest of the arguments, or of a list that is the only one. -/
def Helper.extremeOf (fn : Helper) (args : List (Datum ν)) : Except RuleError (Datum ν) := do
  let items ← match args with
    | [] => .error (.noArguments fn.name)
    | [d] => Datum.listArg fn.name d
    | _ => .ok args
  match items with
  | [] => .error (.emptyList fn.name)
  | d :: ds => Helper.extreme fn d ds

/-- The value of a function call. -/
def Helper.apply (fn : Helper) (args : List (Datum ν)) : Except RuleError (Datum ν) :=
  match fn, args with
  | .len, [d] => Datum.lengthOf d
  | .len, _ => .error (.arity fn.name 1 1 args.length)
  | .sum, [d] => do return .num (← Datum.sumFrom 0.0 (← Datum.listArg fn.name d))
  | .sum, [d, s] => do
    let start ← Datum.numberArg fn.name s
    return .num (← Datum.sumFrom start (← Datum.listArg fn.name d))
  | .sum, _ => .error (.arity fn.name 1 2 args.length)
  | .min, _ => Helper.extremeOf fn args
  | .max, _ => Helper.extremeOf fn args
  | .all, [d] => do return .bool ((← Datum.listArg fn.name d).all Datum.truthy)
  | .all, _ => .error (.arity fn.name 1 1 args.length)
  | .any, [d] => do return .bool ((← Datum.listArg fn.name d).any Datum.truthy)
  | .any, _ => .error (.arity fn.name 1 1 args.length)
  | .abs, [d] => do return .num (Numeric.abs (← Datum.numberArg fn.name d))
  | .abs, _ => .error (.arity fn.name 1 1 args.length)
  | .round, [d] => do return .num (Numeric.roundHalfEven (← Datum.numberArg fn.name d) 0.0)
  | .round, [d, n] => do
    let digits ← Datum.numberArg fn.name n
    return .num (Numeric.roundHalfEven (← Datum.numberArg fn.name d) digits)
  | .round, _ => .error (.arity fn.name 1 2 args.length)

namespace Rule

/-- The item at a position of a list; a negative position counts from the end. -/
def itemAt? (xs : List (Datum ν)) (i : Int) : Option (Datum ν) :=
  let j := if i < 0 then xs.length + i else i
  if j < 0 then none else xs[j.toNat]?

/-- The item or member an index leads to. -/
def indexed (label : String) (d key : Datum ν) : Except RuleError (Datum ν) :=
  let found : Option (Option (Datum ν)) :=
    match d, key with
    | .list _ xs, .num n =>
      match Numeric.exact n with
      | some q => if q.den = 1 then some (itemAt? xs q.num) else none
      | none => none
    | .map _ ms, .str k => some (Members.get? ms k)
    | _, _ => none
  match found with
  | some (some v) => .ok v
  | some none => .error (.missingField label)
  | none => .error (.noIndex label d.kind key.kind)

/-- Whether a path goes through all items of a list somewhere. -/
def hasProjection (ops : List (PathOp ν)) : Bool :=
  ops.any fun op => match op with
    | .project => true
    | _ => false

/-- The items of a list, or the value itself. -/
def spread : Datum ν → List (Datum ν)
  | .list _ xs => xs
  | d => [d]

mutual

/-- The value of a rule on data. -/
def evalOn (data : Datum ν) : Rule ν → Except RuleError (Datum ν)
  | .lit v => .ok (.ofScalar v)
  | .list items => do return .fresh (← evalMany data items)
  | .dict entries => do return .map none (← evalEntries data [] entries)
  | .root => .ok data
  | .path base ops => do applyOps data base.baseLabel (← evalOn data base) ops
  | .call fn args => do fn.apply (← evalMany data args)
  | .not operand => do return .bool !(← evalOn data operand).truthy
  | .neg operand => do
    let d ← evalOn data operand
    match d.number? with
    | some n => return .num (-n)
    | none => throw (.negation d.kind)
  | .logic .and l r => do
    let d ← evalOn data l
    if d.truthy then evalOn data r else return d
  | .logic .or l r => do
    let d ← evalOn data l
    if d.truthy then return d else evalOn data r
  | .arith op l r => do
    let a ← evalOn data l
    let b ← evalOn data r
    op.apply a b
  | .compare first links => do
    let a ← evalOn data first
    return .bool (← evalLinks data a links)

/-- The values of several rules, in order. -/
def evalMany (data : Datum ν) : List (Rule ν) → Except RuleError (List (Datum ν))
  | [] => .ok []
  | r :: rs => do
    let d ← evalOn data r
    return d :: (← evalMany data rs)

/-- The members of a map, set in order after those there are. -/
def evalEntries (data : Datum ν) (ms : Members (Datum ν)) :
    List (Rule ν × Rule ν) → Except RuleError (Members (Datum ν))
  | [] => .ok ms
  | (k, v) :: es => do
    let key ← evalOn data k
    match key with
    | .str name => evalEntries data (Members.set ms name (← evalOn data v)) es
    | _ => throw (.keyExpected key.kind)

/-- Whether every link of a chain holds; nothing after a link that does not hold is looked at. -/
def evalLinks (data : Datum ν) (left : Datum ν) :
    List (CompareOp × Rule ν) → Except RuleError Bool
  | [] => .ok true
  | (op, r) :: links => do
    let d ← evalOn data r
    if ← op.holds left d then evalLinks data d links else return false

/-- Follows the steps of a path from a value; `label` names the path so far. -/
def applyOps (data : Datum ν) (label : String) (d : Datum ν) :
    List (PathOp ν) → Except RuleError (Datum ν)
  | [] => .ok d
  | .member name :: ops => do
    let label := label ++ (.member name : PathOp ν).label
    match d with
    | .map _ ms =>
      match Members.get? ms name with
      | some v => applyOps data label v ops
      | none => throw (.missingField label)
    | _ => throw (.noMember label name d.kind)
  | .index key :: ops => do
    let label := label ++ PathOp.label (.index key)
    applyOps data label (← indexed label d (← evalOn data key)) ops
  | .get args :: ops => do
    let label := label ++ PathOp.label (.get args)
    match args with
    | [k] =>
      match d with
      | .map _ ms => applyOps data label (member ms (← evalOn data k) .null) ops
      | _ => throw (.getExpectsMap label d.kind)
    | [k, fallback] =>
      match d with
      | .map _ ms => do
        let key ← evalOn data k
        applyOps data label (member ms key (← evalOn data fallback)) ops
      | _ => throw (.getExpectsMap label d.kind)
    | _ => throw (.getArity args.length)
  | .project :: ops => do
    let label := label ++ (.project : PathOp ν).label
    match d with
    | .list _ xs =>
      let ys ← xs.mapM fun x => applyOps data label x ops
      return .fresh (if hasProjection ops then ys.flatMap spread else ys)
    | _ => throw (.noProjection label d.kind)
where
  /-- The member of a name, or what to take in its place. -/
  member (ms : Members (Datum ν)) (key fallback : Datum ν) : Datum ν :=
    match key with
    | .str k => (Members.get? ms k).getD fallback
    | _ => fallback

end

/-- At the end of a path is the value that it has led to. -/
theorem applyOps_nil (data : Datum ν) (label : String) (d : Datum ν) :
    applyOps data label d [] = .ok d := by
  rw [applyOps]

theorem evalMany_cons {data d : Datum ν} {rule : Rule ν} {rules : List (Rule ν)}
    {ds : List (Datum ν)} (h : evalOn data rule = .ok d) (hs : evalMany data rules = .ok ds) :
    evalMany data (rule :: rules) = .ok (d :: ds) := by
  rw [evalMany, h, hs]
  rfl

/-- A call applies its function to the values of its arguments. -/
theorem evalOn_call {data : Datum ν} {fn : Helper} {args : List (Rule ν)} {ds : List (Datum ν)}
    (h : evalMany data args = .ok ds) : evalOn data (.call fn args) = fn.apply ds := by
  rw [evalOn, h]
  rfl

theorem evalOn_arith {data a b : Datum ν} {l r : Rule ν} (op : ArithOp)
    (hl : evalOn data l = .ok a) (hr : evalOn data r = .ok b) :
    evalOn data (.arith op l r) = op.apply a b := by
  rw [evalOn, hl, hr]
  rfl

/-- The value of a rule on the members of the data, or the reason why it has none. -/
def eval (rule : Rule ν) (data : Members (Value ν)) : Except RuleError (Value ν) := do
  return (← evalOn (.locate [] (.map data)) rule).plain

/-- Whether the value of a rule on the members of the data counts as true. -/
def holds (rule : Rule ν) (data : Members (Value ν)) : Except RuleError Bool := do
  return (← evalOn (.locate [] (.map data)) rule).truthy

end Rule

end PageExtract
