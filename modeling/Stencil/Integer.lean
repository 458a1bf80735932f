import Stencil.Text.Shown

/-!
# Operators and Integers of 64 Bits

The four operators of expressions, and what they make of integers.

Integers of templates are signed 64-bit words, but no operation on them wraps.
An operation either gives the exact result or says why there is none: the
result does not fit, or the divisor is zero. Division rounds toward negative
infinity.

Division is done on the words themselves. Their quotient is truncated, so it is
one too large exactly where the division is inexact and the operands differ in
sign, and is lowered there.

## Main definitions

* `Operator`: Addition, subtraction, multiplication, division.
* `Operator.symbol`: The character an operator is written as.
* `Operator.isAdditive`: The operator binds less tightly than the other two.
* `narrow?`: The word of an integer, if it fits.
* `floorDiv?`: The quotient rounded down, if there is one that fits.
* `Operator.onIntegers`: What an operator makes of two integers.
* `readInteger?`: The word that a text denotes.
* `showInteger`: The decimal text of a word.
-/

namespace Stencil

/-- An operator between two operands. -/
inductive Operator
  | add
  | sub
  | mul
  | div
deriving Repr, DecidableEq

namespace Operator

/-- The character the operator is written as. -/
def symbol : Operator → String
  | add => "+"
  | sub => "-"
  | mul => "*"
  | div => "/"

/-- Addition and subtraction bind less tightly than multiplication and division. -/
def isAdditive : Operator → Bool
  | add => true
  | sub => true
  | mul => false
  | div => false

end Operator

/-- The word for an integer, or `none` for one that does not fit in 64 bits. -/
def narrow? (n : Int) : Option Int64 :=
  if Int64.minValue.toInt ≤ n ∧ n ≤ Int64.maxValue.toInt then some (Int64.ofInt n) else none

/-- The quotient rounded toward negative infinity. There is none for a zero divisor,
    and none that fits for the least word divided by minus one. -/
def floorDiv? (a b : Int64) : Option Int64 :=
  if b = 0 ∨ (a = Int64.minValue ∧ b = -1) then none
  else if a % b ≠ 0 ∧ (a < 0) ≠ (b < 0) then some (a / b - 1)
  else some (a / b)

/-- Why an operation on integers has no result. -/
inductive ArithmeticError
  | divisionByZero
  | overflow (op : Operator)
deriving Repr, DecidableEq

namespace ArithmeticError

/-- What went wrong, in words. -/
def message : ArithmeticError → String
  | divisionByZero => "division by zero"
  | overflow op => "integer overflow in `" ++ op.symbol ++ "`"

end ArithmeticError

/-- The exact result of an operation, or overflow of the operator if there is none. -/
def fitting (op : Operator) : Option Int64 → Except ArithmeticError Int64
  | some n => .ok n
  | none => .error (.overflow op)

/-- The exact result of an operator on two integers, where it fits. -/
def Operator.onIntegers (op : Operator) (a b : Int64) : Except ArithmeticError Int64 :=
  match op with
  | .add => fitting .add (narrow? (a.toInt + b.toInt))
  | .sub => fitting .sub (narrow? (a.toInt - b.toInt))
  | .mul => fitting .mul (narrow? (a.toInt * b.toInt))
  | .div => if b = 0 then .error .divisionByZero else fitting .div (floorDiv? a b)

/-- The number that decimal digits denote, highest digit first. -/
def digitsValue (ds : List Char) : Nat :=
  ds.foldl (fun n d => 10 * n + (d.toNat - '0'.toNat)) 0

/-- The number that a text of decimal digits denotes. At least one digit is needed,
    and nothing else may stand among them. -/
def readDigits? (ds : List Char) : Option Nat :=
  if ds.isEmpty || !ds.all Char.isDigit then none else some (digitsValue ds)

/-- The word that a text denotes: digits, with at most one sign in front, of a
    number that fits. -/
def readInteger? (s : String) : Option Int64 :=
  match s.toList with
  | '-' :: ds => (readDigits? ds).bind fun n => narrow? (-(n : Int))
  | '+' :: ds => (readDigits? ds).bind fun n => narrow? n
  | ds => (readDigits? ds).bind fun n => narrow? n

/-- The decimal text of a word. -/
def showInteger (n : Int64) : String :=
  Text.ofInt n.toInt

end Stencil
