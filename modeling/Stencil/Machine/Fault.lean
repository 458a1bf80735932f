import Stencil.Value

/-!
# Faults

Why a run of a program fails, and at which instruction.

## Main definitions

* `FaultKind`: The ways in which an instruction fails.
* `Fault`: What failed, and the number of the instruction.
-/

namespace Stencil

/-- What went wrong in one step of the machine. -/
inductive FaultKind
  /-- An instruction popped a value where there was none. -/
  | stackUnderflow
  /-- There is no instruction with this number. -/
  | endOfProgram
  /-- The end of a loop was reached while no loop was running. -/
  | noLoop
  /-- The operator does nothing with operands of these types. -/
  | unsupportedOperands (op : Operator) (lhs rhs : ValueType)
  | arithmetic (e : ArithmeticError)
  /-- A loop over a value that is no array. -/
  | notIterable (type : ValueType)
deriving Repr, DecidableEq

namespace FaultKind

/-- What went wrong, in words. -/
def message : FaultKind → String
  | stackUnderflow => "value stack underflow"
  | endOfProgram => "ran past the end of the program"
  | noLoop => "`CHECK_FOR` without an iteration scope"
  | unsupportedOperands op lhs rhs =>
    "unsupported operands for `" ++ op.symbol ++ "`: " ++ lhs.name ++ " and " ++ rhs.name
  | arithmetic e => e.message
  | notIterable type => "cannot iterate over " ++ type.name

end FaultKind

/-- A failed run: the number of the instruction, and what went wrong in it. -/
structure Fault where
  pc : Nat
  kind : FaultKind
deriving Repr, DecidableEq

namespace Fault

/-- What went wrong and where, in words. -/
def message (f : Fault) : String :=
  f.kind.message ++ " (at instruction " ++ Text.ofNat f.pc ++ ")"

end Fault

/-- The value of an operator on two values. Texts and arrays are joined by addition;
    everything else is for integers alone. -/
def Operator.apply (op : Operator) (lhs rhs : Value) : Except FaultKind Value :=
  match lhs, rhs, op with
  | .integer a, .integer b, op =>
    match op.onIntegers a b with
    | .ok n => .ok (.integer n)
    | .error e => .error (.arithmetic e)
  | .text a, .text b, .add => .ok (.text (a ++ b))
  | .array a, .array b, .add => .ok (.array (a ++ b))
  | a, b, op => .error (.unsupportedOperands op a.type b.type)

end Stencil
