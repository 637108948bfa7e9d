/-
The values that rules compute with.

A value met in the data remembers where it lies there, a value built by a rule lies nowhere. Two
lists or maps are the same one when both lie at one place of the data; equality in contrast looks
at what they hold.

* `Datum`, `Place` : values, and places in the data;
* `Datum.locate`, `Datum.plain` : the data as a datum, and a datum as a plain value;
* `Datum.truthy`, `Datum.equals`, `Datum.isSame` : the tests that never fail;
* `plain_locate` : locating changes no value.
-/
import PageExtract.Value.Basic
import PageExtract.Text.Units

namespace PageExtract

/-- A step down from a list or a map. -/
inductive Step where
  | key (name : String)
  | index (i : Nat)
deriving DecidableEq, Repr, Inhabited

/-- Where a value lies in the data: the steps that lead to it, the last one first. -/
abbrev Place := List Step

/-- A value of a rule. -/
inductive Datum (ν : Type) where
  | null
  | bool (b : Bool)
  | num (n : ν)
  | str (s : String)
  | list (place : Option Place) (items : List (Datum ν))
  | map (place : Option Place) (members : List (String × Datum ν))
deriving Inhabited

/-- The kinds of values. -/
inductive Kind where
  | null
  | boolean
  | number
  | string
  | list
  | map
deriving DecidableEq, Repr, Inhabited

/-- How messages name a kind. -/
def Kind.text : Kind → String
  | null => "null"
  | boolean => "boolean"
  | number => "number"
  | string => "string"
  | list => "list"
  | map => "map"

namespace Datum

variable {ν : Type}

/-- A scalar as a datum. -/
def ofScalar : Scalar ν → Datum ν
  | .null => .null
  | .bool b => .bool b
  | .num n => .num n
  | .str s => .str s

/-- A list built by a rule. -/
def fresh (items : List (Datum ν)) : Datum ν := .list none items

mutual

/-- A value of the data, at a place. -/
def locate (place : Place) : Value ν → Datum ν
  | .null => .null
  | .bool b => .bool b
  | .num n => .num n
  | .str s => .str s
  | .list xs => .list (some place) (locateItems place 0 xs)
  | .map ms => .map (some place) (locateMembers place ms)

/-- The items of a list of the data, from position `i` on. -/
def locateItems (place : Place) (i : Nat) : List (Value ν) → List (Datum ν)
  | [] => []
  | v :: vs => locate (.index i :: place) v :: locateItems place (i + 1) vs

/-- The members of a map of the data. -/
def locateMembers (place : Place) : List (String × Value ν) → List (String × Datum ν)
  | [] => []
  | (k, v) :: ms => (k, locate (.key k :: place) v) :: locateMembers place ms

end

mutual

/-- The value without its places. -/
def plain : Datum ν → Value ν
  | .null => .null
  | .bool b => .bool b
  | .num n => .num n
  | .str s => .str s
  | .list _ xs => .list (plainItems xs)
  | .map _ ms => .map (plainMembers ms)

/-- The items without their places. -/
def plainItems : List (Datum ν) → List (Value ν)
  | [] => []
  | v :: vs => plain v :: plainItems vs

/-- The members without their places. -/
def plainMembers : List (String × Datum ν) → List (String × Value ν)
  | [] => []
  | (k, v) :: ms => (k, plain v) :: plainMembers ms

end

mutual

/-- Locating changes no value. -/
theorem plain_locate (place : Place) : ∀ v : Value ν, plain (locate place v) = v
  | .null => rfl
  | .bool _ => rfl
  | .num _ => rfl
  | .str _ => rfl
  | .list xs => by rw [locate, plain, plainItems_locateItems]
  | .map ms => by rw [locate, plain, plainMembers_locateMembers]

theorem plainItems_locateItems (place : Place) (i : Nat) :
    ∀ vs : List (Value ν), plainItems (locateItems place i vs) = vs
  | [] => rfl
  | v :: vs => by rw [locateItems, plainItems, plain_locate, plainItems_locateItems]

theorem plainMembers_locateMembers (place : Place) :
    ∀ ms : List (String × Value ν), plainMembers (locateMembers place ms) = ms
  | [] => rfl
  | (k, v) :: ms => by
    rw [locateMembers, plainMembers, plain_locate, plainMembers_locateMembers]

end

/-- The kind of a datum. -/
def kind : Datum ν → Kind
  | .null => .null
  | .bool _ => .boolean
  | .num _ => .number
  | .str _ => .string
  | .list _ _ => .list
  | .map _ _ => .map

variable [Numeric ν]

/-- A number, or a truth value as 1 or 0. -/
def number? : Datum ν → Option ν
  | .num n => some n
  | .bool b => some (if b then 1.0 else 0.0)
  | _ => none

/-- Whether a datum counts as true: null, false, zero and what is empty do not. -/
def truthy : Datum ν → Bool
  | .null => false
  | .bool b => b
  | .num n => !(n == 0.0)
  | .str s => !s.toList.isEmpty
  | .list _ xs => !xs.isEmpty
  | .map _ ms => !ms.isEmpty

mutual

/-- Whether two data are equal: numbers by value, truth values counting as 1 and 0; lists item by
item; maps member by member in any order. -/
def equals : Datum ν → Datum ν → Bool
  | .null, .null => true
  | .str s, .str t => s == t
  | .list _ xs, .list _ ys => equalItems xs ys
  | .map _ ms, .map _ ns => ms.length == ns.length && equalMembers ms ns
  | .num n, d => match number? d with
    | some m => n == m
    | none => false
  | .bool b, d => match number? d with
    | some m => (if b then 1.0 else 0.0 : ν) == m
    | none => false
  | _, _ => false

/-- Whether two lists are equal item by item. -/
def equalItems : List (Datum ν) → List (Datum ν) → Bool
  | [], [] => true
  | x :: xs, y :: ys => equals x y && equalItems xs ys
  | _, _ => false

/-- Whether every member of the first map has an equal one of the same name in the second. -/
def equalMembers : List (String × Datum ν) → List (String × Datum ν) → Bool
  | [], _ => true
  | (k, v) :: ms, ns =>
    (match Members.get? ns k with
      | some w => equals v w
      | none => false) && equalMembers ms ns

end

/-- Whether two data are the same one: scalars of one kind and value, or a list or map at one
place of the data. -/
def isSame : Datum ν → Datum ν → Bool
  | .null, .null => true
  | .bool b, .bool c => b == c
  | .num n, .num m => n == m
  | .str s, .str t => s == t
  | .list (some p) _, .list (some q) _ => p = q
  | .map (some p) _, .map (some q) _ => p = q
  | _, _ => false

end Datum

end PageExtract
