import Stencil.Machine.Fault
import Stencil.Proofs.Code.Placement
import Stencil.Vars

/-!
# Templates and Their Meaning

The trees that templates are read into, and what they print.

`Node` admits trees in which a text stands inside an array or a body is no
sequence. A `Template` is a list of statements, with expressions of their own type
inside, so none of those can be written down. `Template.node` is its tree.

The meaning is given by recursion on the template. An expression has a value in an
environment, which says what each name is bound to, and a statement prints a text.
No stack, no jump and no table of names takes part: a loop performs its body once for
each item, in the environment with one more binding.

Evaluation can fail, and the fault says which instruction fails. That number is
counted along the tree: `base` is the number of instructions in front of what is
evaluated, and `Node.codeSize` adds those of its parts. The right operand and the
last element come first, so where several parts would fail, theirs is the fault.

## Main definitions

* `Expression`, `Statement`, `Template`: The trees of templates, each with its `node`.
* `Environment`: What names are bound to.
* `Expression.evaluate`: The value of an expression.
* `Statement.perform`: The text that a statement prints.
* `Template.output`: The text that a template prints with variables.
-/

namespace Stencil

/-- An expression of a template. -/
inductive Expression
  | integer (n : Int64)
  | nil
  | lookup (name : String)
  | array (elements : List Expression)
  | binary (op : Operator) (lhs rhs : Expression)

/-- A statement of a template. -/
inductive Statement
  | text (s : String)
  | print (e : Expression)
  | ifThen (condition : Expression) (body : List Statement)
  | forEach (name : String) (iterable : Expression) (body : List Statement)

/-- The statements of a template in order. -/
abbrev Template := List Statement

mutual

/-- The tree of an expression. -/
def Expression.node : Expression → Node
  | .integer n => .integer n
  | .nil => .nil
  | .lookup name => .lookup name
  | .array elements => .array (Expression.nodes elements)
  | .binary op lhs rhs => .binary op lhs.node rhs.node

/-- The trees of expressions. -/
def Expression.nodes : List Expression → List Node
  | [] => []
  | e :: es => e.node :: Expression.nodes es

end

mutual

/-- The tree of a statement. A body is a sequence. -/
def Statement.node : Statement → Node
  | .text s => .text s
  | .print e => .print e.node
  | .ifThen condition body => .ifThen condition.node (.sequence (Statement.nodes body))
  | .forEach name iterable body => .forEach name iterable.node (.sequence (Statement.nodes body))

/-- The trees of statements. -/
def Statement.nodes : List Statement → List Node
  | [] => []
  | s :: ss => s.node :: Statement.nodes ss

end

/-- The tree of a template: the sequence of its statements. -/
def Template.node (t : Template) : Node :=
  .sequence (Statement.nodes t)

theorem Expression.nodes_eq_map (es : List Expression) :
    Expression.nodes es = es.map Expression.node := by
  induction es with
  | nil => rfl
  | cons e es ih => rw [nodes, ih, List.map_cons]

theorem Statement.nodes_eq_map (ss : List Statement) :
    Statement.nodes ss = ss.map Statement.node := by
  induction ss with
  | nil => rfl
  | cons s ss ih => rw [nodes, ih, List.map_cons]

theorem Expression.length_nodes (es : List Expression) :
    (Expression.nodes es).length = es.length := by
  rw [nodes_eq_map, List.length_map]

/-- What names are bound to. A name that nothing binds stands for nil. -/
abbrev Environment := String → Value

namespace Environment

/-- The bindings of variables. -/
def ofVars (vars : Vars) : Environment :=
  fun name => Value.ofOption (vars.get? name)

/-- The bindings inside a loop: its name stands for the item, whatever it stood for
    outside. -/
def bind (env : Environment) (name : String) (item : Value) : Environment :=
  fun other => if other = name then item else env other

end Environment

mutual

/-- The value of an expression with `base` instructions in front of it. The right
    operand is evaluated before the left one. -/
def Expression.evaluate (env : Environment) (base : Nat) : Expression → Except Fault Value
  | .integer n => .ok (.integer n)
  | .nil => .ok .nil
  | .lookup name => .ok (env name)
  | .array elements => do
    let items ← Expression.evaluateReversed env base elements
    .ok (.array items)
  | .binary op lhs rhs => do
    let right ← rhs.evaluate env base
    let left ← lhs.evaluate env (base + rhs.node.codeSize)
    match op.apply left right with
    | .ok v => .ok v
    | .error kind => .error ⟨base + rhs.node.codeSize + lhs.node.codeSize, kind⟩

/-- The values of expressions in their order, evaluated from the last to the first. -/
def Expression.evaluateReversed (env : Environment) (base : Nat) :
    List Expression → Except Fault (List Value)
  | [] => .ok []
  | e :: es => do
    let later ← Expression.evaluateReversed env base es
    let first ← e.evaluate env (base + Node.codeSizeAll (Expression.nodes es))
    .ok (first :: later)

end

/-- There are as many values as expressions. -/
theorem Expression.length_evaluateReversed {env : Environment} {base : Nat}
    {es : List Expression} {items : List Value}
    (h : Expression.evaluateReversed env base es = .ok items) : items.length = es.length := by
  induction es generalizing items with
  | nil =>
      simp only [Expression.evaluateReversed, Except.ok.injEq] at h
      rw [← h]
      rfl
  | cons e es ih =>
      -- Both the later values and the first one are there.
      simp only [Expression.evaluateReversed, bind, Except.bind] at h
      split at h
      · exact absurd h (by simp only [reduceCtorEq, not_false_eq_true])
      · rename_i later hlater
        split at h
        · exact absurd h (by simp only [reduceCtorEq, not_false_eq_true])
        · rw [Except.ok.injEq] at h
          rw [← h, List.length_cons, List.length_cons, ih hlater]

/-- The texts that a body prints for each item in order, in one text. -/
def forItems (body : Value → Except Fault String) : List Value → Except Fault String
  | [] => .ok ""
  | item :: items => do
    let first ← body item
    let later ← forItems body items
    .ok (first ++ later)

mutual

/-- The text that a statement prints, with `base` instructions in front of it. The
    iterable of a loop is evaluated outside the loop's binding. -/
def Statement.perform (env : Environment) (base : Nat) : Statement → Except Fault String
  | .text s => .ok s
  | .print e => do
    let v ← e.evaluate env base
    .ok v.display
  | .ifThen condition body => do
    let test ← condition.evaluate env base
    if test = .nil then .ok ""
    else Statement.performAll env (base + condition.node.codeSize + 1) body
  | .forEach name iterable body => do
    let source ← iterable.evaluate env base
    match source with
    | .array items =>
      forItems (fun item =>
        Statement.performAll (env.bind name item) (base + iterable.node.codeSize + 1) body) items
    | v => .error ⟨base + iterable.node.codeSize, .notIterable v.type⟩

/-- The text that statements print in order. -/
def Statement.performAll (env : Environment) (base : Nat) : List Statement → Except Fault String
  | [] => .ok ""
  | s :: ss => do
    let first ← s.perform env base
    let later ← Statement.performAll env (base + s.node.codeSize) ss
    .ok (first ++ later)

end

/-- The text that a template prints with variables, or its first fault. -/
def Template.output (t : Template) (vars : Vars) : Except Fault String :=
  Statement.performAll (.ofVars vars) 0 t

end Stencil
