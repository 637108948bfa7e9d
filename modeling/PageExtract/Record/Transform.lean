/-
Transforms of extracted values.

A transform never fails: text that does not read as the number asked for becomes zero.

* `Transform` : the transforms, with their names;
* `Transform.scalar`, `Transform.apply` : the transform of one scalar, and of an extracted value.
-/
import PageExtract.Record.Tree
import PageExtract.Text.Case

namespace PageExtract

/-- The transforms. -/
inductive Transform where
  | toInt
  | toFloat
  | strip
  | upper
  | lower
  | lastNameOnly
deriving DecidableEq, Repr, Inhabited

namespace Transform

/-- The name of a transform. -/
def name : Transform → String
  | toInt => "to_int"
  | toFloat => "to_float"
  | strip => "strip"
  | upper => "upper"
  | lower => "lower"
  | lastNameOnly => "last_name_only"

/-- The transforms, in the order in which messages list them. -/
def every : List Transform := [toInt, toFloat, strip, upper, lower, lastNameOnly]

/-- The transform of a name. -/
def ofName? (s : String) : Option Transform := every.find? fun t => t.name == s

/-- A scalar as text; null is empty. -/
def textOf : Scalar Float → String
  | .null => ""
  | .bool b => if b then "true" else "false"
  | .num n => Numeric.text n
  | .str s => s

/-- The whole number a text spells; zero if it spells none. -/
def intOf (s : String) : Float :=
  let cs := Text.trimChars s.toList
  if Numeral.isSignedInteger cs then Numeral.toFloat cs else 0.0

/-- The number a text spells, blank characters around it aside. -/
def numberOf? (s : String) : Option Float :=
  let cs := Text.trimChars s.toList
  if Numeral.isSignedNumeral cs then some (Numeral.toFloat cs) else none

/-- The transform of one scalar; null stays null. -/
def scalar (t : Transform) (v : Scalar Float) : Scalar Float :=
  match v, t with
  | .null, _ => .null
  | .num n, toInt => .num (Numeric.truncate n)
  | .num n, toFloat => .num n
  | v, toInt => .num (intOf (textOf v))
  | v, toFloat => .num ((numberOf? (textOf v)).getD 0.0)
  | v, strip => .str (Text.trim (textOf v))
  | v, upper => .str (Text.upper (textOf v))
  | v, lower => .str (Text.lower (textOf v))
  | v, lastNameOnly =>
    match (Text.words (textOf v)).getLast? with
    | some w => .str w
    | none => v

/-- The transform of an extracted value, item by item. -/
def apply (t : Transform) : Extracted Float → Extracted Float
  | .one v => .one (t.scalar v)
  | .many vs => .many (vs.map t.scalar)

end Transform

end PageExtract
