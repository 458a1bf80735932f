import Stencil.Code
import Stencil.Integer
import Stencil.Text.Shown

/-!
# Program Listings

The readable form of a program: one line for each instruction, with its number,
its name in capitals and its operands. Names are written in place of their keys.

## Main definitions

* `Instruction.listed`: An instruction with its operands.
* `Program.lines`: The lines of a program, each with its line end.
* `Program.listing`: The whole listing.
-/

namespace Stencil

/-- The name of an operator's instruction. -/
def Operator.mnemonic : Operator → String
  | .add => "ADD"
  | .sub => "SUB"
  | .mul => "MUL"
  | .div => "DIV"

/-- The name of a key in a listing. A key that is not of the table has none. -/
def Names.listed (names : Names) (key : Nat) : String :=
  (names.name? key).getD "<unknown>"

/-- An instruction with its operands, its names taken from a table. -/
def Instruction.listed (names : Names) : Instruction → String
  | .stop => "STOP"
  | .pushInteger n => "PUSH_INT " ++ showInteger n
  | .pushNil => "PUSH_NIL"
  | .operate op => op.mnemonic
  | .printText s => "PRINT_RAW " ++ Text.quote s
  | .printTop => "PRINT_TOP"
  | .lookup key => "LOOKUP " ++ names.listed key
  | .makeArray count => "MAKE_ARRAY " ++ Text.ofNat count
  | .jumpIfFalse target => "JUMP_IF_FALSE " ++ Text.ofNat target
  | .beginFor key target => "BEGIN_FOR " ++ names.listed key ++ " " ++ Text.ofNat target
  | .checkFor target => "CHECK_FOR " ++ Text.ofNat target

namespace Program

/-- The line of the instruction with a number, which has at least four digits. -/
def line (p : Program) (number : Nat) (i : Instruction) : String :=
  Text.padded 4 number ++ " " ++ i.listed p.names ++ "\n"

/-- The lines of the program in order. -/
def lines (p : Program) : List String :=
  p.code.toList.zipIdx.map fun (i, number) => p.line number i

/-- The listing of the program. -/
def listing (p : Program) : String :=
  p.lines.foldl (· ++ ·) ""

end Program

end Stencil
