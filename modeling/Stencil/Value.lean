import Stencil.Integer

/-!
# Values

What the expressions of a template evaluate to, and how a value is printed. The
expression language itself makes nil, integers and arrays; texts come in through
variables.

## Main definitions

* `Value`: Nil, an integer, a text, or an array of values.
* `Value.isTruthy`: The value counts as true in a condition.
* `Value.type`: The type of a value, with a name for messages.
* `Value.display`: The text that a value prints as.
-/

namespace Stencil

/-- A value of a template. -/
inductive Value
  /-- What an unbound name stands for, and the only value that is not true. -/
  | nil
  | integer (n : Int64)
  | text (s : String)
  | array (items : List Value)
deriving Repr, Inhabited

/-- The types of values. -/
inductive ValueType
  | nil
  | integer
  | text
  | array
deriving Repr, DecidableEq

namespace ValueType

/-- The name of the type in messages. -/
def name : ValueType → String
  | nil => "nil"
  | integer => "integer"
  | text => "text"
  | array => "array"

end ValueType

namespace Value

mutual

/-- Whether two values are the same. -/
def decEq : (a b : Value) → Decidable (a = b)
  | .nil, .nil => .isTrue rfl
  | .nil, .integer _ => .isFalse nofun
  | .nil, .text _ => .isFalse nofun
  | .nil, .array _ => .isFalse nofun
  | .integer _, .nil => .isFalse nofun
  | .integer m, .integer n =>
    if h : m = n then .isTrue (h ▸ rfl) else .isFalse fun e => h (Value.integer.inj e)
  | .integer _, .text _ => .isFalse nofun
  | .integer _, .array _ => .isFalse nofun
  | .text _, .nil => .isFalse nofun
  | .text _, .integer _ => .isFalse nofun
  | .text s, .text t =>
    if h : s = t then .isTrue (h ▸ rfl) else .isFalse fun e => h (Value.text.inj e)
  | .text _, .array _ => .isFalse nofun
  | .array _, .nil => .isFalse nofun
  | .array _, .integer _ => .isFalse nofun
  | .array _, .text _ => .isFalse nofun
  | .array as, .array bs =>
    match decEqAll as bs with
    | .isTrue h => .isTrue (h ▸ rfl)
    | .isFalse h => .isFalse fun e => h (Value.array.inj e)

/-- Whether two lists of values are the same. -/
def decEqAll : (as bs : List Value) → Decidable (as = bs)
  | [], [] => .isTrue rfl
  | [], _ :: _ => .isFalse nofun
  | _ :: _, [] => .isFalse nofun
  | a :: as, b :: bs =>
    match decEq a b with
    | .isFalse h => .isFalse fun e => h (List.cons.inj e).1
    | .isTrue ha =>
      match decEqAll as bs with
      | .isFalse h => .isFalse fun e => h (List.cons.inj e).2
      | .isTrue has => .isTrue (ha ▸ has ▸ rfl)

end

instance : DecidableEq Value := decEq

/-- Every value counts as true except nil. -/
def isTruthy : Value → Bool
  | nil => false
  | _ => true

/-- The type of the value. -/
def type : Value → ValueType
  | nil => .nil
  | integer _ => .integer
  | text _ => .text
  | array _ => .array

/-- The integer that the value is, if it is one. -/
def asInteger? : Value → Option Int64
  | integer n => some n
  | _ => none

/-- The items of the array that the value is, if it is one. -/
def asArray? : Value → Option (List Value)
  | array items => some items
  | _ => none

mutual

/-- The text that a value prints as: nothing for nil, a text as it is, and an array
    as its items between brackets. -/
def display : Value → String
  | nil => ""
  | integer n => showInteger n
  | text s => s
  | array items => "[" ++ displayItems items ++ "]"

/-- The items of an array with a comma and a space between them. -/
def displayItems : List Value → String
  | [] => ""
  | v :: vs => display v ++ displayRest vs

/-- The items after the first, each behind a comma and a space. -/
def displayRest : List Value → String
  | [] => ""
  | v :: vs => ", " ++ (display v ++ displayRest vs)

end

/-- The value that stands for an optional value: nil where there is none. -/
def ofOption : Option Value → Value
  | some v => v
  | none => nil

end Value

end Stencil
