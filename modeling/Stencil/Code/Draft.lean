import Stencil.Code
import Stencil.Node

/-!
# Compiling

Turns a tree into a program. Code is written front to back onto a draft. Where a
node needs a jump over code that does not exist yet, the jump is written with no
target, and `patch` gives it the end of the draft once that code is there.

| Node                  | Code                                                      |
|-----------------------|-----------------------------------------------------------|
| sequence              | its statements in order                                   |
| text                  | print the text                                            |
| print                 | the expression, print the top                             |
| integer, nil, lookup  | push                                                      |
| array                 | its elements from last to first, make an array            |
| binary                | the right operand, the left operand, the operator         |
| ifThen                | the condition, jump if false to the end, the body         |
| forEach               | the iterable, begin with the end as target, the body,     |
|                       | check with the body as target                             |

Operands are pushed from right to left so that the machine pops them from left to
right.

## Main definitions

* `Draft`: Code that is being written, and the names met so far.
* `Draft.patch`: Points a jump at the end of the draft.
* `emit`: Writes the code of a node.
* `compile`: The program of a tree.
-/

namespace Stencil

/-- The target of a jump that is not known yet, beyond any program. -/
def noTarget : Nat :=
  UInt64.size - 1

/-- A forward jump with a new target; any other instruction stays. -/
def Instruction.retarget (target : Nat) : Instruction → Instruction
  | .jumpIfFalse _ => .jumpIfFalse target
  | .beginFor key _ => .beginFor key target
  | i => i

/-- Code that is being written, and the names met so far. -/
structure Draft where
  code : Array Instruction
  names : Names

namespace Draft

/-- Nothing is written. -/
def empty : Draft :=
  ⟨#[], .empty⟩

/-- The number of the next instruction. -/
def size (d : Draft) : Nat :=
  d.code.size

/-- The draft with one more instruction. -/
def push (d : Draft) (i : Instruction) : Draft :=
  { d with code := d.code.push i }

/-- The draft after a name is mentioned. -/
def intern (d : Draft) (name : String) : Draft :=
  { d with names := d.names.intern name }

/-- Points the jump with this number at the end of the draft. -/
def patch (d : Draft) (number : Nat) : Draft :=
  { d with code := d.code.modify number (·.retarget d.code.size) }

end Draft

mutual

/-- Writes the code of a node. -/
def emit : Node → Draft → Draft
  | .sequence statements, d => emitAll statements d
  | .text s, d => d.push (.printText s)
  | .print e, d => (emit e d).push .printTop
  | .integer n, d => d.push (.pushInteger n)
  | .nil, d => d.push .pushNil
  | .lookup name, d => (d.intern name).push (.lookup (d.names.keyOf name))
  | .array elements, d => (emitReversed elements d).push (.makeArray elements.length)
  | .binary op lhs rhs, d => (emit lhs (emit rhs d)).push (.operate op)
  | .ifThen condition body, d =>
    let d := emit condition d
    (emit body (d.push (.jumpIfFalse noTarget))).patch d.size
  | .forEach name iterable body, d =>
    let d := emit iterable d
    let start := d.size
    let d := (d.intern name).push (.beginFor (d.names.keyOf name) noTarget)
    ((emit body d).push (.checkFor (start + 1))).patch start

/-- Writes the code of nodes in order. -/
def emitAll : List Node → Draft → Draft
  | [], d => d
  | n :: ns, d => emitAll ns (emit n d)

/-- Writes the code of nodes from the last to the first. -/
def emitReversed : List Node → Draft → Draft
  | [], d => d
  | n :: ns, d => emit n (emitReversed ns d)

end

/-- The program of a tree: its code, then the end of the run. -/
def compile (root : Node) : Program :=
  let d := (emit root .empty).push .stop
  ⟨d.code, d.names⟩

end Stencil
