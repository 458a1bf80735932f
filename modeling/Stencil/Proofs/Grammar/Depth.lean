import Stencil.Proofs.Grammar.Recognition
import Stencil.Proofs.Grammar.Trees

/-!
# How Deep Parsed Trees Are

The limit on the nesting bounds what blocks and arrays add to the depth of a tree, and
operators are free of it.

Compiling goes down a tree node by node, so the depth of a tree is how deep the recursion
goes. A block puts two nodes around its statements, itself and the sequence of its body,
and an array puts one around its elements. What else stands on the way to a leaf is the
root, one statement, the leaf, and operators. So with the nesting within the limit, the
depth of a tree is that of its operators with a constant added.

The operators of a chain nest to the left, each one in the next, and the reader takes in a
chain of any length. It counts for nothing in the nesting. There is thus no bound on the
depth of parsed trees, not even of those with no block and no array in them.

## Main definitions

* `Node.operatorDepth`: How many operators enclose each other in a tree.
* `additionTokens`, `additions`: A chain of additions and its tree.

## Theorems

* `operatorDepth_lt_depth`: Operators that enclose each other make a tree deep.
* `Expression.depth_le`, `Statement.depth_le`: Besides them, only nesting does.
* `parse_additions`: A chain of any length is parsed.
* `parse_depth`: How deep the parsed trees are.
* `parse_depth_unbounded`: They are of any depth.
-/

namespace Stencil

open Grammar

mutual

/-- How many operators enclose each other in a tree. -/
def Node.operatorDepth : Node → Nat
  | .sequence statements => Node.operatorDepthAll statements
  | .text _ => 0
  | .print e => e.operatorDepth
  | .integer _ => 0
  | .nil => 0
  | .lookup _ => 0
  | .array elements => Node.operatorDepthAll elements
  | .binary _ lhs rhs => max lhs.operatorDepth rhs.operatorDepth + 1
  | .ifThen condition body => max condition.operatorDepth body.operatorDepth
  | .forEach _ iterable body => max iterable.operatorDepth body.operatorDepth

/-- The greatest number of operators that enclose each other among nodes. -/
def Node.operatorDepthAll : List Node → Nat
  | [] => 0
  | n :: ns => max n.operatorDepth (Node.operatorDepthAll ns)

end

mutual

/-- A tree is deeper than its operators are. -/
theorem operatorDepth_lt_depth : (n : Node) → n.operatorDepth < n.depth
  | .sequence statements => Nat.lt_succ_of_le (operatorDepthAll_le_depthAll statements)
  | .text _ | .integer _ | .nil | .lookup _ => Nat.zero_lt_one
  | .print e => Nat.lt_succ_of_lt (operatorDepth_lt_depth e)
  | .array elements => Nat.lt_succ_of_le (operatorDepthAll_le_depthAll elements)
  | .binary _ lhs rhs => by
      have hlhs := operatorDepth_lt_depth lhs
      have hrhs := operatorDepth_lt_depth rhs
      simp only [Node.operatorDepth, Node.depth]
      omega
  | .ifThen condition body | .forEach _ condition body => by
      have hcondition := operatorDepth_lt_depth condition
      have hbody := operatorDepth_lt_depth body
      simp only [Node.operatorDepth, Node.depth]
      omega

theorem operatorDepthAll_le_depthAll :
    (ns : List Node) → Node.operatorDepthAll ns ≤ Node.depthAll ns
  | [] => Nat.le_refl 0
  | n :: ns => by
      have hn := operatorDepth_lt_depth n
      have hns := operatorDepthAll_le_depthAll ns
      simp only [Node.operatorDepthAll, Node.depthAll]
      omega

end

mutual

/-- In the tree of an expression each node but the leaf is an array or an operator. -/
theorem Expression.depth_le :
    (e : Expression) → e.node.depth ≤ e.node.nesting + e.node.operatorDepth + 1
  | .integer _ | .nil | .lookup _ => Nat.le_refl 1
  | .array elements => by
      have helements := Expression.depthAll_le elements
      simp only [node, Node.depth, Node.nesting, Node.operatorDepth]
      omega
  | .binary _ lhs rhs => by
      have hlhs := Expression.depth_le lhs
      have hrhs := Expression.depth_le rhs
      simp only [node, Node.depth, Node.nesting, Node.operatorDepth]
      omega

theorem Expression.depthAll_le : (es : List Expression) →
    Node.depthAll (Expression.nodes es) ≤
      Node.nestingAll (Expression.nodes es) + Node.operatorDepthAll (Expression.nodes es) + 1
  | [] => Nat.zero_le _
  | e :: es => by
      have he := Expression.depth_le e
      have hes := Expression.depthAll_le es
      simp only [nodes, Node.depthAll, Node.nestingAll, Node.operatorDepthAll]
      omega

end

mutual

/-- In the tree of a statement a block is two nodes, and there is one for the statement. -/
theorem Statement.depth_le :
    (s : Statement) → s.node.depth ≤ 2 * s.node.nesting + s.node.operatorDepth + 2
  | .text _ => Nat.le_succ 1
  | .print e => by
      have he := Expression.depth_le e
      simp only [node, Node.depth, Node.nesting, Node.operatorDepth]
      omega
  | .ifThen condition body | .forEach _ condition body => by
      have hcondition := Expression.depth_le condition
      have hbody := Statement.depthAll_le body
      simp only [node, Node.depth, Node.nesting, Node.operatorDepth]
      omega

theorem Statement.depthAll_le : (ss : List Statement) →
    Node.depthAll (Statement.nodes ss) ≤
      2 * Node.nestingAll (Statement.nodes ss) + Node.operatorDepthAll (Statement.nodes ss) + 2
  | [] => Nat.zero_le _
  | s :: ss => by
      have hs := Statement.depth_le s
      have hss := Statement.depthAll_le ss
      simp only [nodes, Node.depthAll, Node.nestingAll, Node.operatorDepthAll]
      omega

end

theorem Template.depth_le (t : Template) :
    t.node.depth ≤ 2 * t.node.nesting + t.node.operatorDepth + 3 :=
  Nat.succ_le_succ (Statement.depthAll_le t)

/-- The tokens of `n` additions in a chain. -/
def additionTokens (name : String) : Nat → List Token
  | 0 => [.identifier name]
  | n + 1 => additionTokens name n ++ [.operator .add, .identifier name]

/-- The tree of `n` additions in a chain. -/
def additions (name : String) : Nat → Node
  | 0 => .lookup name
  | n + 1 => .binary .add (additions name n) (.lookup name)

/-- A chain of any length is an expression. -/
theorem sum_additions (name : String) (n : Nat) :
    Grammar.Sum (additionTokens name n) (additions name n) := by
  induction n with
  | zero => exact .one (.one .lookup)
  | succ n ih => exact .more ih rfl (.one .lookup)

/-- The operators of a chain enclose each other. -/
theorem operatorDepth_additions (name : String) (n : Nat) :
    (additions name n).operatorDepth = n := by
  induction n with
  | zero => rfl
  | succ n ih => rw [additions, Node.operatorDepth, ih, Node.operatorDepth, Nat.max_zero]

/-- A chain has no block and no array in it. -/
theorem nesting_additions (name : String) (n : Nat) : (additions name n).nesting = 0 := by
  induction n with
  | zero => rfl
  | succ n ih => rw [additions, Node.nesting, ih, Node.nesting, Nat.max_zero]

/-- A tag that prints a chain of any length is parsed. -/
theorem parse_additions (name : String) (n : Nat) :
    parse (.tagOpen :: (additionTokens name n ++ [.tagClose])) =
      .ok (.sequence [.print (additions name n)]) := by
  have htemplate : Grammar.Template (.tagOpen :: (additionTokens name n ++ [.tagClose]))
      (.sequence [.print (additions name n)]) :=
    ⟨_, .tag .nil (.print (sum_additions name n)), rfl⟩
  have hnesting : (Node.sequence [.print (additions name n)]).nesting = 0 := by
    rw [Node.nesting, Node.nestingAll, Node.nesting, nesting_additions, Node.nestingAll,
      Nat.max_zero]
  refine readTree_of_template htemplate ?_
  rw [hnesting]
  exact fits_zero _

/-- The depth of a parsed tree is that of its operators, with no more than a constant added
    for blocks and arrays. So among some templates the depth is bounded exactly where their
    operators are. -/
theorem parse_depth {ts : List Token} {root : Node} (h : parse ts = .ok root) :
    root.operatorDepth < root.depth ∧ root.depth ≤ 515 + root.operatorDepth := by
  have hnesting : root.nesting ≤ 256 := fits_of_readTree h 256 rfl
  rcases template_of_parse h with ⟨t, rfl⟩
  have hdepth := t.depth_le
  exact ⟨operatorDepth_lt_depth _, by omega⟩

/-- One addition, in a tree of four nodes one around the other. -/
theorem parse_depth_addition :
    parse (.tagOpen :: (additionTokens "x" 1 ++ [.tagClose])) =
        .ok (.sequence [.print (additions "x" 1)]) ∧
      1 < (Node.sequence [.print (additions "x" 1)]).depth ∧
      (Node.sequence [.print (additions "x" 1)]).depth ≤ 515 + 1 := by
  have hparse : parse (.tagOpen :: (additionTokens "x" 1 ++ [.tagClose])) =
      .ok (.sequence [.print (additions "x" 1)]) := rfl
  exact ⟨hparse, parse_depth hparse⟩

/-- No constant bounds the depth of parsed trees. -/
theorem parse_depth_unbounded :
    ¬ ∃ bound, ∀ ts root, parse ts = .ok root → root.depth ≤ bound := by
  rintro ⟨bound, hbound⟩
  have hdepth := hbound _ _ (parse_additions "x" bound)
  have hoperators := operatorDepth_lt_depth (.sequence [.print (additions "x" bound)])
  rw [Node.operatorDepth, Node.operatorDepthAll, Node.operatorDepth, operatorDepth_additions,
    Node.operatorDepthAll, Nat.max_zero] at hoperators
  omega

end Stencil
