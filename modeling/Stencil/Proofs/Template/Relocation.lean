import Stencil.Proofs.Template

/-!
# Templates Behind Other Code

What a template means does not depend on how many instructions are in front of it, but
for the numbers in its faults.

Evaluation counts instructions only to say which of them fails. With `d` more of them in
front, every fault is the same with `d` added to its number, and everything else is as it
was. Statements one behind the other print one text behind the other, so two templates
put together print what each of them prints, as long as the first one does not fail.

## Main definitions

* `Fault.relocate`: A fault with more instructions in front.

## Theorems

* `mapError_bind`: What comes first and what comes next may be relocated apart.
* `evaluate_relocate`, `perform_relocate`: Relocated code has relocated faults.
* `performAll_append`: Statements in front are performed first.
* `output_append`, `output_append_text`: What templates put together print.
-/

namespace Stencil

/-- The fault with `d` more instructions in front. -/
def Fault.relocate (d : Nat) (f : Fault) : Fault :=
  ⟨d + f.pc, f.kind⟩

/-- Where all that comes next is changed in its errors, and what comes first is too, the
    whole is. -/
theorem mapError_bind {α β ε : Type} {h : ε → ε} {x : Except ε α} {f g : α → Except ε β}
    (hfg : ∀ a, g a = (f a).mapError h) : (x.mapError h >>= g) = (x >>= f).mapError h := by
  cases x with
  | ok a => exact hfg a
  | error e => rfl

section

variable {env : Environment} {d base : Nat}

mutual

/-- An expression with more instructions in front has the same value, or the fault with as
    many more in front. -/
theorem evaluate_relocate : (e : Expression) → ∀ base : Nat,
    e.evaluate env (d + base) = (e.evaluate env base).mapError (Fault.relocate d)
  | .integer _, _ => rfl
  | .nil, _ => rfl
  | .lookup _, _ => rfl
  | .array elements, base => by
      rw [Expression.evaluate, Expression.evaluate, evaluateReversed_relocate elements base]
      exact mapError_bind fun items => rfl
  | .binary op lhs rhs, base => by
      rw [Expression.evaluate, Expression.evaluate, evaluate_relocate rhs base]
      refine mapError_bind fun right => ?_
      rw [Nat.add_assoc d, evaluate_relocate lhs (base + rhs.node.codeSize)]
      refine mapError_bind fun left => ?_
      -- The operator's own instruction is behind both operands.
      rw [Nat.add_assoc d]
      cases op.apply left right with
      | ok v => rfl
      | error kind => rfl

theorem evaluateReversed_relocate : (es : List Expression) → ∀ base : Nat,
    Expression.evaluateReversed env (d + base) es
      = (Expression.evaluateReversed env base es).mapError (Fault.relocate d)
  | [], _ => rfl
  | e :: es, base => by
      rw [Expression.evaluateReversed, Expression.evaluateReversed,
        evaluateReversed_relocate es base]
      refine mapError_bind fun later => ?_
      rw [Nat.add_assoc d, evaluate_relocate e]
      exact mapError_bind fun first => rfl

end

theorem forItems_mapError {h : Fault → Fault} {body body' : Value → Except Fault String}
    (hbody : ∀ item, body' item = (body item).mapError h) (items : List Value) :
    forItems body' items = (forItems body items).mapError h := by
  induction items with
  | nil => rfl
  | cons item items ih =>
      rw [forItems, forItems, hbody item]
      refine mapError_bind fun first => ?_
      rw [ih]
      exact mapError_bind fun later => rfl

end

mutual

/-- A statement with more instructions in front prints the same text, or fails with as many
    more in front. -/
theorem perform_relocate {d : Nat} : (s : Statement) → ∀ (env : Environment) (base : Nat),
    s.perform env (d + base) = (s.perform env base).mapError (Fault.relocate d)
  | .text _, _, _ => rfl
  | .print e, env, base => by
      rw [Statement.perform, Statement.perform, evaluate_relocate e base]
      exact mapError_bind fun v => rfl
  | .ifThen condition body, env, base => by
      rw [Statement.perform, Statement.perform, evaluate_relocate condition base]
      refine mapError_bind fun test => ?_
      by_cases htest : test = .nil
      · rw [if_pos htest, if_pos htest]
        rfl
      · rw [if_neg htest, if_neg htest, Nat.add_assoc d, Nat.add_assoc d,
          performAll_relocate body env (base + condition.node.codeSize + 1)]
  | .forEach name iterable body, env, base => by
      rw [Statement.perform, Statement.perform, evaluate_relocate iterable base]
      refine mapError_bind fun source => ?_
      rw [Nat.add_assoc d]
      cases source with
      | array items =>
          refine forItems_mapError (fun item => ?_) items
          rw [Nat.add_assoc d]
          exact performAll_relocate body (env.bind name item) (base + iterable.node.codeSize + 1)
      | nil => rfl
      | integer n => rfl
      | text s => rfl

theorem performAll_relocate {d : Nat} : (ss : List Statement) → ∀ (env : Environment) (base : Nat),
    Statement.performAll env (d + base) ss
      = (Statement.performAll env base ss).mapError (Fault.relocate d)
  | [], _, _ => rfl
  | s :: ss, env, base => by
      rw [Statement.performAll, Statement.performAll, perform_relocate s env base]
      refine mapError_bind fun first => ?_
      rw [Nat.add_assoc d, performAll_relocate ss env (base + s.node.codeSize)]
      exact mapError_bind fun later => rfl

end

/-- Statements in front are performed first, and those behind them print behind them. -/
theorem performAll_append (env : Environment) (base : Nat) (front back : List Statement) :
    Statement.performAll env base (front ++ back) =
      (Statement.performAll env base front >>= fun first =>
        Statement.performAll env (base + Node.codeSizeAll (Statement.nodes front)) back >>=
          fun later => .ok (first ++ later)) := by
  induction front generalizing base with
  | nil =>
      rw [List.nil_append, Statement.nodes, Node.codeSizeAll, Nat.add_zero]
      cases Statement.performAll env base back with
      | error f => rfl
      | ok later => exact congrArg Except.ok String.empty_append.symm
  | cons s front ih =>
      rw [List.cons_append, Statement.performAll, Statement.performAll, ih, Statement.nodes,
        Node.codeSizeAll, ← Nat.add_assoc]
      cases s.perform env base with
      | error f => rfl
      | ok first =>
          cases Statement.performAll env (base + s.node.codeSize) front with
          | error f => rfl
          | ok middle =>
              cases Statement.performAll env
                  (base + s.node.codeSize + Node.codeSizeAll (Statement.nodes front)) back with
              | error f => rfl
              | ok later => exact congrArg Except.ok String.append_assoc.symm

/-- The code of templates put together is the code of both. -/
theorem Template.codeSize_node_append (t u : Template) :
    (Template.node (t ++ u)).codeSize = t.node.codeSize + u.node.codeSize := by
  induction t with
  | nil => exact (Nat.zero_add _).symm
  | cons s t ih =>
      simp only [node, Node.codeSize, List.cons_append, Statement.nodes, Node.codeSizeAll] at ih ⊢
      rw [ih, Nat.add_assoc]

/-- A template in front of another prints first, and the other one's instructions come
    behind its own. -/
theorem output_append (t u : Template) (vars : Vars) :
    Template.output (t ++ u) vars =
      (t.output vars >>= fun first =>
        (u.output vars).mapError (Fault.relocate t.node.codeSize) >>= fun later =>
          .ok (first ++ later)) := by
  have hbehind : Statement.performAll (.ofVars vars) (0 + Node.codeSizeAll (Statement.nodes t)) u
      = (u.output vars).mapError (Fault.relocate t.node.codeSize) := by
    rw [Nat.add_comm]
    exact performAll_relocate u (.ofVars vars) 0
  rw [Template.output, performAll_append, hbehind]
  rfl

/-- Where a text meets a text, the one instruction that prints both stands in the place of
    the first one's. -/
theorem output_append_text (t u : Template) (s s' : String) (vars : Vars) :
    Template.output (t ++ .text (s ++ s') :: u) vars =
      (Template.output (t ++ [.text s]) vars >>= fun first =>
        (Template.output (.text s' :: u) vars).mapError (Fault.relocate t.node.codeSize) >>=
          fun later => .ok (first ++ later)) := by
  rw [output_append, output_append t [.text s]]
  cases t.output vars with
  | error f => rfl
  | ok first =>
      -- The texts cannot fail, and behind either of them the same statements come.
      have hback : ∀ text, Template.output (.text text :: u) vars =
          (Statement.performAll (.ofVars vars) 1 u >>= fun later => .ok (text ++ later)) :=
        fun text => rfl
      have hlast : Template.output [.text s] vars = .ok (s ++ "") := rfl
      rw [hback, hback, hlast]
      cases Statement.performAll (.ofVars vars) 1 u with
      | error f => rfl
      | ok later =>
          refine congrArg Except.ok ?_
          rw [String.append_empty, String.append_assoc, String.append_assoc]

end Stencil
