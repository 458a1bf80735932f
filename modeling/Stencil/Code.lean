import Stencil.Code.Names
import Stencil.Integer

/-!
# Programs

The instructions of the stack machine, and programs made of them. A program is
flat: instructions are numbered from zero, and jumps name the instruction they go
to.

## Main definitions

* `Instruction`: What the machine can do in one step.
* `Program`: Instructions with the names they refer to.
-/

namespace Stencil

/-- An instruction of the stack machine. -/
inductive Instruction
  /-- Ends the run. -/
  | stop
  | pushInteger (n : Int64)
  | pushNil
  /-- Pops the left operand, then the right one, and pushes the result. -/
  | operate (op : Operator)
  /-- Prints a fixed text. -/
  | printText (s : String)
  /-- Pops a value and prints it. -/
  | printTop
  /-- Pushes the value bound to a name. -/
  | lookup (key : Nat)
  /-- Pops values into an array, the first one popped in front. -/
  | makeArray (count : Nat)
  /-- Pops a value and jumps if it does not count as true. -/
  | jumpIfFalse (target : Nat)
  /-- Pops an array. With no items it jumps, else it opens a scope in which the name is
      bound to the first item. -/
  | beginFor (key target : Nat)
  /-- Binds the next item and jumps, or closes the scope after the last. -/
  | checkFor (target : Nat)
deriving Repr, DecidableEq

/-- A flat program and the names it refers to. -/
structure Program where
  code : Array Instruction
  names : Names

namespace Program

/-- The number of instructions. -/
def size (p : Program) : Nat :=
  p.code.size

end Program

end Stencil
