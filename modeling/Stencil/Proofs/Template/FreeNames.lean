import Stencil.Proofs.Template

/-!
# Free Names

What a template takes from its variables.

A name is free in a tree if it is looked up somewhere outside of the bodies of the loops
that bind it. The iterable of a loop is outside of the loop's own binding. What a tree
evaluates to depends on the environment only at the free names: a loop binds its name
alike in any two environments, and so they agree inside it on one more name.

## Main definitions

* `Node.freeNames`: The names that are free in a tree.
* `Environment.AgreeOn`: Two environments bind some names to the same values.

## Theorems

* `AgreeOn.bind`: Environments that agree outside of a loop agree inside it.
* `evaluate_congr`, `perform_congr`: Evaluation depends on the free names alone.
* `output_congr`: The output of a template depends on its free names alone.
-/

namespace Stencil

mutual

/-- The names that are free in a tree, as often as they are. -/
def Node.freeNames : Node → List String
  | .sequence statements => Node.freeNamesAll statements
  | .text _ => []
  | .print e => e.freeNames
  | .integer _ => []
  | .nil => []
  | .lookup name => [name]
  | .array elements => Node.freeNamesAll elements
  | .binary _ lhs rhs => lhs.freeNames ++ rhs.freeNames
  | .ifThen condition body => condition.freeNames ++ body.freeNames
  | .forEach name iterable body => iterable.freeNames ++ body.freeNames.filter (· ≠ name)

/-- The names that are free in some of the nodes. -/
def Node.freeNamesAll : List Node → List String
  | [] => []
  | n :: ns => n.freeNames ++ Node.freeNamesAll ns

end

/-- Two environments bind the names to the same values. -/
def Environment.AgreeOn (names : List String) (env env' : Environment) : Prop :=
  ∀ name ∈ names, env name = env' name

namespace Environment.AgreeOn

variable {names names' : List String} {env env' : Environment}

theorem left (h : AgreeOn (names ++ names') env env') : AgreeOn names env env' :=
  fun name hname => h name (List.mem_append_left _ hname)

theorem right (h : AgreeOn (names ++ names') env env') : AgreeOn names' env env' :=
  fun name hname => h name (List.mem_append_right _ hname)

/-- Environments that agree outside of a loop on all names but the loop's agree inside it on
    all names. -/
theorem bind {name : String} (h : AgreeOn (names.filter (· ≠ name)) env env') (item : Value) :
    AgreeOn names (env.bind name item) (env'.bind name item) := by
  intro other hother
  by_cases hname : other = name
  · rw [Environment.bind, Environment.bind, if_pos hname, if_pos hname]
  · rw [Environment.bind, Environment.bind, if_neg hname, if_neg hname]
    exact h other (List.mem_filter.mpr ⟨hother, decide_eq_true hname⟩)

end Environment.AgreeOn

open Environment

section

variable {env env' : Environment}

mutual

/-- The value of an expression depends on its free names alone. -/
theorem evaluate_congr : (e : Expression) → AgreeOn e.node.freeNames env env' → ∀ base : Nat,
    e.evaluate env base = e.evaluate env' base
  | .integer _, _, _ => rfl
  | .nil, _, _ => rfl
  | .lookup name, h, _ => congrArg Except.ok (h name List.mem_cons_self)
  | .array elements, h, base => by
      rw [Expression.evaluate, Expression.evaluate, evaluateReversed_congr elements h]
  | .binary op lhs rhs, h, base => by
      rw [Expression.evaluate, Expression.evaluate, evaluate_congr rhs h.right]
      simp only [evaluate_congr lhs h.left]

theorem evaluateReversed_congr : (es : List Expression) →
    AgreeOn (Node.freeNamesAll (Expression.nodes es)) env env' → ∀ base : Nat,
    Expression.evaluateReversed env base es = Expression.evaluateReversed env' base es
  | [], _, _ => rfl
  | e :: es, h, base => by
      rw [Expression.evaluateReversed, Expression.evaluateReversed,
        evaluateReversed_congr es h.right]
      simp only [evaluate_congr e h.left]

end

end

mutual

/-- The text that a statement prints depends on its free names alone. -/
theorem perform_congr : (s : Statement) → ∀ {env env' : Environment},
    AgreeOn s.node.freeNames env env' → ∀ base : Nat, s.perform env base = s.perform env' base
  | .text _, _, _, _, _ => rfl
  | .print e, _, _, h, base => by
      rw [Statement.perform, Statement.perform, evaluate_congr e h]
  | .ifThen condition body, _, _, h, base => by
      rw [Statement.perform, Statement.perform, evaluate_congr condition h.left,
        performAll_congr body h.right]
  | .forEach name iterable body, env, env', h, base => by
      -- The body is performed in environments that agree on the loop's name too.
      have hbody : ∀ item start, Statement.performAll (env.bind name item) start body
          = Statement.performAll (env'.bind name item) start body :=
        fun item start => performAll_congr body (h.right.bind item) start
      rw [Statement.perform, Statement.perform, evaluate_congr iterable h.left]
      simp only [hbody]

theorem performAll_congr : (ss : List Statement) → ∀ {env env' : Environment},
    AgreeOn (Node.freeNamesAll (Statement.nodes ss)) env env' → ∀ base : Nat,
    Statement.performAll env base ss = Statement.performAll env' base ss
  | [], _, _, _, _ => rfl
  | s :: ss, _, _, h, base => by
      rw [Statement.performAll, Statement.performAll, perform_congr s h.left,
        performAll_congr ss h.right]

end

/-- The output of a template depends on its free names alone. -/
theorem output_congr (t : Template) {vars vars' : Vars}
    (h : ∀ name ∈ t.node.freeNames, vars.get? name = vars'.get? name) :
    t.output vars = t.output vars' :=
  performAll_congr t (fun name hname => congrArg Value.ofOption (h name hname)) 0

end Stencil
