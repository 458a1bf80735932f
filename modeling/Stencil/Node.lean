import Stencil.Integer

/-!
# Template Trees

The tree a template is read into. One type holds statements and expressions
alike, so a tree can be put together that no template is read into, such as a
text inside an array; compiling and running give every such tree a meaning.

## Main definitions

* `Node`: A statement or an expression.
* `Node.statements?`: The statements of a sequence.
* `Node.depth`: How many nodes enclose each other.
-/

namespace Stencil

/-- A node of a template's tree. -/
inductive Node
  /-- Statements in order. The root of a template and the body of a block are
      sequences. -/
  | sequence (statements : List Node)
  /-- Literal text, printed as it is. -/
  | text (s : String)
  /-- The value of an expression, printed. -/
  | print (expression : Node)
  | integer (n : Int64)
  | nil
  /-- The value bound to a name. -/
  | lookup (name : String)
  | array (elements : List Node)
  | binary (op : Operator) (lhs rhs : Node)
  /-- A body for when a condition holds. There is no other branch. -/
  | ifThen (condition body : Node)
  /-- A body for each element of an array, with a name bound to the element. -/
  | forEach (name : String) (iterable body : Node)
deriving Repr

namespace Node

/-- The statements of a sequence, `none` for any other node. -/
def statements? : Node → Option (List Node)
  | sequence statements => some statements
  | _ => none

mutual

/-- The greatest number of nodes on a way from the node down to a leaf. -/
def depth : Node → Nat
  | sequence nodes => depthAll nodes + 1
  | text _ => 1
  | print e => depth e + 1
  | integer _ => 1
  | nil => 1
  | lookup _ => 1
  | array nodes => depthAll nodes + 1
  | binary _ lhs rhs => max (depth lhs) (depth rhs) + 1
  | ifThen condition body => max (depth condition) (depth body) + 1
  | forEach _ iterable body => max (depth iterable) (depth body) + 1

/-- The greatest depth among the nodes of a list. -/
def depthAll : List Node → Nat
  | [] => 0
  | n :: ns => max (depth n) (depthAll ns)

end

end Node

end Stencil
