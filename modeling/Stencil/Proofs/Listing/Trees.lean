import Stencil.Proofs.Code.Keys
import Stencil.Proofs.Listing.Lines
import Stencil.Proofs.Template

/-!
# Reading Code Back into a Template

The instructions of a template, with their names, can be read back into it.

Code is flat, but it says where its parts are. An instruction of an expression takes its
operands from those that came before it, so expressions are read as the machine would run
them, with a stack that holds expressions in place of values. A statement starts with an
empty stack, and is complete when a text or the top is printed. A conditional jump is the
start of a block, and its target is the end: the instructions up to there are the body, read
on their own, and it does not matter whether the blocks around end at the same place. The
same goes for loops, whose last instruction is the check.

So what is read is determined by the code from an address on and the stack. The code of an
expression puts it onto the stack, and the code of a statement puts it in front of what is
read from the rest.

## Main definitions

* `decompile`: The statements of code.
* `decompileProgram`: The template of a whole program, up to the stop.

## Theorems

* `decompile_expression`: The code of an expression puts it onto the stack.
* `decompile_statement`: The code of a statement puts it in front.
* `decompileProgram_compile`: The template of a compiled program is read back.
-/

namespace Stencil

/-- The statements of the code from an address on, with expressions that were read before
    and not used yet. -/
def decompile : Nat → List Expression → List NamedInstruction → Option Template
  | _, [], [] => some []
  | pc, stack, .pushInteger n :: code => decompile (pc + 1) (.integer n :: stack) code
  | pc, stack, .pushNil :: code => decompile (pc + 1) (.nil :: stack) code
  | pc, stack, .lookup name :: code => decompile (pc + 1) (.lookup name :: stack) code
  | pc, stack, .makeArray count :: code =>
    decompile (pc + 1) (.array (stack.take count) :: stack.drop count) code
  | pc, lhs :: rhs :: stack, .operate op :: code =>
    decompile (pc + 1) (.binary op lhs rhs :: stack) code
  | pc, [], .printText s :: code => (decompile (pc + 1) [] code).map (.text s :: ·)
  | pc, [e], .printTop :: code => (decompile (pc + 1) [] code).map (.print e :: ·)
  | pc, [condition], .jumpIfFalse target :: code => do
    let body ← decompile (pc + 1) [] (code.take (target - (pc + 1)))
    (decompile target [] (code.drop (target - (pc + 1)))).map (.ifThen condition body :: ·)
  | pc, [iterable], .beginFor name target :: code => do
    -- The check in front of the target belongs to the loop, and not to its body.
    let body ← decompile (pc + 1) [] (code.take (target - (pc + 2)))
    (decompile target [] (code.drop (target - (pc + 1)))).map (.forEach name iterable body :: ·)
  | _, _, _ => none
termination_by _ _ code => code.length
decreasing_by all_goals simp only [List.length_cons, List.length_take, List.length_drop]; omega

/-- The template of a whole program, which ends with the stop. -/
def decompileProgram (code : List NamedInstruction) : Option Template :=
  if code.getLast? = some .stop then decompile 0 [] code.dropLast else none

section Blocks

variable {pc target : Nat} {e : Expression} {name : String} {check : NamedInstruction}
variable {code rest : List NamedInstruction} {body : Template}

/-- The code up to the target of a conditional jump is the body of its block. -/
theorem decompile_block (hbody : decompile (pc + 1) [] code = some body)
    (htarget : target = pc + 1 + code.length) :
    decompile pc [e] (.jumpIfFalse target :: (code ++ rest)) =
      (decompile target [] rest).map (.ifThen e body :: ·) := by
  have hlength : target - (pc + 1) = code.length := by omega
  rw [decompile, hlength, List.take_left, List.drop_left, hbody]
  rfl

/-- The code up to the target of a loop is its body and a check. -/
theorem decompile_loop (hbody : decompile (pc + 1) [] code = some body)
    (htarget : target = pc + 1 + code.length + 1) :
    decompile pc [e] (.beginFor name target :: (code ++ check :: rest)) =
      (decompile target [] rest).map (.forEach name e body :: ·) := by
  have hlength : target - (pc + 2) = code.length := by omega
  have hbehind : target - (pc + 1) = code.length + 1 := by omega
  have hrest : (code ++ check :: rest).drop (code.length + 1) = rest := by
    rw [List.drop_append, List.drop_of_length_le (Nat.le_add_right _ _), Nat.add_sub_cancel_left,
      List.drop_one, List.nil_append, List.tail_cons]
  rw [decompile, hlength, hbehind, List.take_left, hrest, hbody]
  rfl

end Blocks

mutual

/-- The code of an expression puts it onto the stack. -/
theorem decompile_expression : (e : Expression) → ∀ {names table : Names} (base : Nat)
    (stack : List Expression) (rest : List NamedInstruction),
    (mention e.node names).toList <+: table.toList →
    decompile base stack ((layout e.node base names).map (·.named table) ++ rest) =
      decompile (base + e.node.codeSize) (e :: stack) rest
  | .integer n, names, table, base, stack, rest, _ => by
      rw [Expression.node, layout, List.map_singleton, List.singleton_append, Instruction.named,
        decompile]
      rfl
  | .nil, names, table, base, stack, rest, _ => by
      rw [Expression.node, layout, List.map_singleton, List.singleton_append, Instruction.named,
        decompile]
      rfl
  | .lookup name, names, table, base, stack, rest, h => by
      rw [Expression.node, layout, List.map_singleton, List.singleton_append, Instruction.named,
        Names.listed_of_name? (name?_keyOf h), decompile]
      rfl
  | .array elements, names, table, base, stack, rest, h => by
      rw [Expression.node, layout, List.map_append, List.append_assoc, List.map_singleton,
        List.singleton_append, decompile_elements elements base stack _ h, Instruction.named,
        decompile, Expression.length_nodes, List.take_left, List.drop_left]
      rfl
  | .binary op lhs rhs, names, table, base, stack, rest, h => by
      -- The right operand is read first, and the left one comes on top of it.
      have hrhs := (prefix_mention lhs.node (mention rhs.node names)).trans h
      rw [Expression.node, layout, List.map_append, List.map_append, List.append_assoc,
        List.append_assoc, List.map_singleton, List.singleton_append,
        decompile_expression rhs base stack _ hrhs, layout_length,
        decompile_expression lhs _ _ _ h, Instruction.named, decompile, Node.codeSize,
        ← Nat.add_assoc, ← Nat.add_assoc]

/-- The code of elements puts all of them onto the stack, the first one on top. -/
theorem decompile_elements : (es : List Expression) → ∀ {names table : Names} (base : Nat)
    (stack : List Expression) (rest : List NamedInstruction),
    (mentionReversed (Expression.nodes es) names).toList <+: table.toList →
    decompile base stack
        ((layoutReversed (Expression.nodes es) base names).map (·.named table) ++ rest) =
      decompile (base + Node.codeSizeAll (Expression.nodes es)) (es ++ stack) rest
  | [], _, _, _, _, _, _ => rfl
  | e :: es, names, table, base, stack, rest, h => by
      -- The later elements are read first, so the stack has them in their order.
      have hlater := (prefix_mention e.node (mentionReversed (Expression.nodes es) names)).trans h
      rw [Expression.nodes, layoutReversed, List.map_append, List.append_assoc,
        decompile_elements es base stack _ hlater, layoutReversed_length,
        decompile_expression e _ _ _ h, Node.codeSizeAll, Nat.add_assoc,
        Nat.add_comm (Node.codeSizeAll _)]
      rfl

end

mutual

/-- The code of a statement puts it in front of what is read from the rest. -/
theorem decompile_statement : (s : Statement) → ∀ {names table : Names} (base : Nat)
    (rest : List NamedInstruction), (mention s.node names).toList <+: table.toList →
    decompile base [] ((layout s.node base names).map (·.named table) ++ rest) =
      (decompile (base + s.node.codeSize) [] rest).map (s :: ·)
  | .text s, names, table, base, rest, _ => by
      rw [Statement.node, layout, List.map_singleton, List.singleton_append, Instruction.named,
        decompile]
      rfl
  | .print e, names, table, base, rest, h => by
      rw [Statement.node, layout, List.map_append, List.append_assoc, List.map_singleton,
        List.singleton_append, decompile_expression e base [] _ h, Instruction.named, decompile]
      rfl
  | .ifThen condition body, names, table, base, rest, h => by
      have hcondition :=
        (prefix_mentionAll (Statement.nodes body) (mention condition.node names)).trans h
      have hbody := decompile_statements body (base + condition.node.codeSize + 1) h
      -- The jump finds the condition alone on the stack, and its target behind the body.
      rw [Statement.node, layout, List.map_append, List.append_assoc, List.map_cons,
        List.cons_append, decompile_expression condition base [] _ hcondition, layout_length,
        layout, Instruction.named, decompile_block hbody (by rw [List.length_map]),
        layoutAll_length, Node.codeSize, Node.codeSize, ← Nat.add_assoc, ← Nat.add_assoc]
  | .forEach name iterable body, names, table, base, rest, h => by
      have hname := (prefix_mentionAll (Statement.nodes body)
        ((mention iterable.node names).intern name)).trans h
      have hiterable := (prefix_intern (mention iterable.node names) name).trans hname
      have hbody := decompile_statements body (base + iterable.node.codeSize + 1) h
      -- The loop's name has its key before the body mentions any other.
      rw [Statement.node, layout, List.map_append, List.append_assoc, List.map_cons,
        List.cons_append, decompile_expression iterable base [] _ hiterable, layout_length, layout,
        List.map_append, List.append_assoc, List.map_singleton, List.singleton_append,
        Instruction.named, Names.listed_of_name? (name?_keyOf hname),
        decompile_loop hbody (by rw [List.length_map]), layoutAll_length,
        Node.codeSize, Node.codeSize, ← Nat.add_assoc, ← Nat.add_assoc, ← Nat.add_assoc]

/-- The code of statements in order is read back. -/
theorem decompile_statements : (ss : List Statement) → ∀ {names table : Names} (base : Nat),
    (mentionAll (Statement.nodes ss) names).toList <+: table.toList →
    decompile base [] ((layoutAll (Statement.nodes ss) base names).map (·.named table)) = some ss
  | [], _, _, _, _ => by
      rw [Statement.nodes, layoutAll, List.map_nil, decompile]
  | s :: ss, names, table, base, h => by
      have hfirst := (prefix_mentionAll (Statement.nodes ss) (mention s.node names)).trans h
      rw [Statement.nodes, layoutAll, List.map_append, decompile_statement s base _ hfirst,
        layout_length, decompile_statements ss _ h, Option.map_some]

end

/-- The template of a compiled program is read back from its instructions with their
    names. -/
theorem decompileProgram_compile (t : Template) :
    decompileProgram ((compile t.node).code.toList.map (·.named (compile t.node).names)) =
      some t := by
  have hcode := decompile_statements t 0 (prefix_compile_names t.node)
  rw [compile_code, List.map_append, List.map_singleton, Instruction.named, decompileProgram,
    if_pos List.getLast?_concat, List.dropLast_concat]
  exact hcode

end Stencil
