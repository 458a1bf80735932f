import Stencil.Proofs.Code.Keys
import Stencil.Proofs.Grammar.Trees
import Stencil.Proofs.Machine.Simulation
import Stencil.Proofs.Template.FreeNames
import Stencil.Proofs.Template.Relocation

/-!
# Renaming Loops

The name of a loop may be changed for any other that the tree does not mention.

The machine has no notion of a bound name. It looks a key up by searching the scopes that are
there, and a name that is changed changes keys all over the program. On the template there is
none of this left: a loop evaluates its body in an environment with one more binding, and
what the body does in it is what the renamed body does in the environment with the other
binding. Inside the body the two environments differ, under the old name as well as under
the new one. The new name is nowhere asked for, and the old one only below a further loop
over it, where both environments have that loop's binding.

So the loop and the renamed loop mean the same wherever they stand, at any address, and have
code of the same size. A tree around them cannot tell them apart.

## Main definitions

* `Node.rename`: A name replaced where it is free.
* `Environment.Renamed`: One environment binds a name as another one binds another name.
* `Statement.Alike`: Two statements with the same meaning and code of the same size.
* `Node.Context`, `Node.Context.fill`: A tree with one node missing, and with it put in.

## Theorems

* `codeSize_rename`: Renaming changes no size.
* `evaluate_rename`, `perform_rename`: The renamed tree means in the renamed environment what
  the tree means.
* `forEach_alike`: A loop and the renamed loop are alike.
* `statement_fill`: Trees around alike statements are alike.
* `run_rename_loop`: Renaming a loop of a tree that was parsed changes no run.
-/

namespace Stencil

mutual

/-- The node with another name for a name wherever that is free. Below a loop over the name
    it is not, but for the loop's iterable. -/
def Node.rename (x y : String) : Node → Node
  | .sequence statements => .sequence (Node.renameAll x y statements)
  | .text s => .text s
  | .print e => .print (e.rename x y)
  | .integer n => .integer n
  | .nil => .nil
  | .lookup name => .lookup (if name = x then y else name)
  | .array elements => .array (Node.renameAll x y elements)
  | .binary op lhs rhs => .binary op (lhs.rename x y) (rhs.rename x y)
  | .ifThen condition body => .ifThen (condition.rename x y) (body.rename x y)
  | .forEach name iterable body =>
    .forEach name (iterable.rename x y) (if name = x then body else body.rename x y)

/-- The nodes with another name for a name wherever that is free. -/
def Node.renameAll (x y : String) : List Node → List Node
  | [] => []
  | n :: ns => n.rename x y :: Node.renameAll x y ns

end

section

variable {x y : String}

mutual

theorem codeSize_rename : (n : Node) → (n.rename x y).codeSize = n.codeSize
  | .sequence statements => codeSizeAll_renameAll statements
  | .text _ => rfl
  | .print e => congrArg (· + 1) (codeSize_rename e)
  | .integer _ => rfl
  | .nil => rfl
  | .lookup _ => rfl
  | .array elements => congrArg (· + 1) (codeSizeAll_renameAll elements)
  | .binary _ lhs rhs => by
      rw [Node.rename, Node.codeSize, codeSize_rename lhs, codeSize_rename rhs, Node.codeSize]
  | .ifThen condition body => by
      rw [Node.rename, Node.codeSize, codeSize_rename condition, codeSize_rename body,
        Node.codeSize]
  | .forEach name iterable body => by
      have hbody : (if name = x then body else body.rename x y).codeSize = body.codeSize := by
        split
        · rfl
        · exact codeSize_rename body
      rw [Node.rename, Node.codeSize, codeSize_rename iterable, hbody, Node.codeSize]

theorem codeSizeAll_renameAll : (ns : List Node) →
    Node.codeSizeAll (Node.renameAll x y ns) = Node.codeSizeAll ns
  | [] => rfl
  | n :: ns => by
      rw [Node.renameAll, Node.codeSizeAll, codeSize_rename n, codeSizeAll_renameAll ns,
        Node.codeSizeAll]

end

end

mutual

/-- A name that is free is mentioned. -/
theorem mentions_of_freeNames {name : String} : (n : Node) → name ∈ n.freeNames →
    name ∈ n.mentions
  | .sequence statements, h => by
      have := freeNamesAll_mentions statements h
      exact this.1
  | .text _, h => h
  | .print e, h => mentions_of_freeNames e h
  | .integer _, h => h
  | .nil, h => h
  | .lookup _, h => h
  | .array elements, h => (freeNamesAll_mentions elements h).2
  | .binary _ lhs rhs, h => by
      rcases List.mem_append.mp h with h | h
      · exact List.mem_append_right _ (mentions_of_freeNames lhs h)
      · exact List.mem_append_left _ (mentions_of_freeNames rhs h)
  | .ifThen condition body, h => by
      rcases List.mem_append.mp h with h | h
      · exact List.mem_append_left _ (mentions_of_freeNames condition h)
      · exact List.mem_append_right _ (mentions_of_freeNames body h)
  | .forEach _ iterable body, h => by
      rcases List.mem_append.mp h with h | h
      · exact List.mem_append_left _ (mentions_of_freeNames iterable h)
      · have hbody := mentions_of_freeNames body (List.mem_filter.mp h).1
        exact List.mem_append_right _ (List.mem_cons_of_mem _ hbody)

theorem freeNamesAll_mentions {name : String} : (ns : List Node) →
    name ∈ Node.freeNamesAll ns →
      name ∈ Node.mentionsAll ns ∧ name ∈ Node.mentionsReversed ns
  | [], h => ⟨h, h⟩
  | n :: ns, h => by
      rcases List.mem_append.mp h with h | h
      · have hfirst := mentions_of_freeNames n h
        exact ⟨List.mem_append_left _ hfirst, List.mem_append_right _ hfirst⟩
      · have hlater := freeNamesAll_mentions ns h
        exact ⟨List.mem_append_right _ hlater.1, List.mem_append_left _ hlater.2⟩

end

/-- The second environment binds `y` as the first one binds `x`, and all other names as the
    first one does. -/
structure Environment.Renamed (x y : String) (env env' : Environment) : Prop where
  new : env' y = env x
  other : ∀ name, name ≠ x → name ≠ y → env' name = env name

section

variable {x y : String} {env env' : Environment}

/-- A loop over another name keeps environments renamed. -/
theorem Environment.Renamed.bind (h : Renamed x y env env') {name : String} (hx : name ≠ x)
    (hy : name ≠ y) (item : Value) : Renamed x y (env.bind name item) (env'.bind name item) := by
  refine ⟨?_, fun other hox hoy => ?_⟩
  · rw [Environment.bind, Environment.bind, if_neg hy.symm, if_neg hx.symm, h.new]
  · rw [Environment.bind, Environment.bind, h.other other hox hoy]

/-- In a loop over the old name both environments bind it alike, and no other name that is
    not the new one differs. -/
theorem Environment.Renamed.agree_bind (h : Renamed x y env env') {names : List String}
    (hy : y ∉ names) (item : Value) : AgreeOn names (env.bind x item) (env'.bind x item) := by
  intro name hname
  rw [Environment.bind, Environment.bind]
  by_cases hx : name = x
  · rw [if_pos hx, if_pos hx]
  · rw [if_neg hx, if_neg hx]
    exact (h.other name hx fun heq => hy (heq ▸ hname)).symm

/-- Binding the old name and binding the new one instead. -/
theorem Environment.renamed_bind (env : Environment) (x y : String) (item : Value) :
    Renamed x y (env.bind x item) (env.bind y item) := by
  refine ⟨?_, fun name hx hy => ?_⟩
  · rw [Environment.bind, Environment.bind, if_pos rfl, if_pos rfl]
  · rw [Environment.bind, Environment.bind, if_neg hx, if_neg hy]

end

open Environment

section

variable {x y : String}

mutual

/-- An expression with a name renamed is an expression, and its value is the same where the
    environment is renamed too. -/
theorem evaluate_rename : (e : Expression) → y ∉ e.node.mentions →
    ∃ e' : Expression, e'.node = e.node.rename x y ∧
      ∀ env env', Renamed x y env env' → ∀ base, e'.evaluate env' base = e.evaluate env base
  | .integer n, _ => ⟨.integer n, rfl, fun _ _ _ _ => rfl⟩
  | .nil, _ => ⟨.nil, rfl, fun _ _ _ _ => rfl⟩
  | .lookup name, hy => by
      refine ⟨.lookup (if name = x then y else name), rfl, fun env env' henv base => ?_⟩
      rw [Expression.evaluate, Expression.evaluate]
      split
      · rename_i hx
        rw [henv.new, hx]
      · rename_i hx
        rw [henv.other name hx fun heq => hy (heq ▸ List.mem_cons_self)]
  | .array elements, hy => by
      rcases evaluateReversed_rename elements hy with ⟨elements', hnodes, heval⟩
      refine ⟨.array elements', congrArg Node.array hnodes, fun env env' henv base => ?_⟩
      rw [Expression.evaluate, Expression.evaluate, heval env env' henv]
  | .binary op lhs rhs, hy => by
      rw [Expression.node, Node.mentions, List.mem_append, not_or] at hy
      rcases evaluate_rename lhs hy.2 with ⟨lhs', hlhs, hleft⟩
      rcases evaluate_rename rhs hy.1 with ⟨rhs', hrhs, hright⟩
      refine ⟨.binary op lhs' rhs', congrArg₂ (Node.binary op) hlhs hrhs,
        fun env env' henv base => ?_⟩
      simp only [Expression.evaluate, hleft env env' henv, hright env env' henv, hlhs, hrhs,
        codeSize_rename]

theorem evaluateReversed_rename : (es : List Expression) →
    y ∉ Node.mentionsReversed (Expression.nodes es) →
    ∃ es' : List Expression, Expression.nodes es' = Node.renameAll x y (Expression.nodes es) ∧
      ∀ env env', Renamed x y env env' → ∀ base,
        Expression.evaluateReversed env' base es' = Expression.evaluateReversed env base es
  | [], _ => ⟨[], rfl, fun _ _ _ _ => rfl⟩
  | e :: es, hy => by
      rw [Expression.nodes, Node.mentionsReversed, List.mem_append, not_or] at hy
      rcases evaluate_rename e hy.2 with ⟨e', hnode, heval⟩
      rcases evaluateReversed_rename es hy.1 with ⟨es', hnodes, hevals⟩
      refine ⟨e' :: es', congrArg₂ List.cons hnode hnodes, fun env env' henv base => ?_⟩
      simp only [Expression.evaluateReversed, heval env env' henv, hevals env env' henv, hnodes,
        codeSizeAll_renameAll]

end

mutual

/-- A statement with a name renamed is a statement, and it prints the same where the
    environment is renamed too. -/
theorem perform_rename : (s : Statement) → y ∉ s.node.mentions →
    ∃ s' : Statement, s'.node = s.node.rename x y ∧
      ∀ env env', Renamed x y env env' → ∀ base, s'.perform env' base = s.perform env base
  | .text s, _ => ⟨.text s, rfl, fun _ _ _ _ => rfl⟩
  | .print e, hy => by
      rcases evaluate_rename e hy with ⟨e', hnode, heval⟩
      refine ⟨.print e', congrArg Node.print hnode, fun env env' henv base => ?_⟩
      rw [Statement.perform, Statement.perform, heval env env' henv]
  | .ifThen condition body, hy => by
      rw [Statement.node, Node.mentions, List.mem_append, not_or] at hy
      rcases evaluate_rename condition hy.1 with ⟨condition', hcondition, htest⟩
      rcases performAll_rename body hy.2 with ⟨body', hbody, hinner⟩
      refine ⟨.ifThen condition' body', ?_, fun env env' henv base => ?_⟩
      · rw [Statement.node, hcondition, hbody]
        rfl
      · simp only [Statement.perform, htest env env' henv, hinner env env' henv, hcondition,
          codeSize_rename]
  | .forEach name iterable body, hy => by
      rw [Statement.node, Node.mentions, List.mem_append, List.mem_cons, not_or, not_or] at hy
      rcases evaluate_rename iterable hy.1 with ⟨iterable', hiterable, hsource⟩
      by_cases hx : name = x
      · -- The body of a loop over the old name stays, and both environments bind the name.
        refine ⟨.forEach name iterable' body, ?_, fun env env' henv base => ?_⟩
        · rw [Statement.node, hiterable, Statement.node, Node.rename, if_pos hx]
        · have hfree : y ∉ Node.freeNamesAll (Statement.nodes body) :=
            fun hmem => hy.2.2 (freeNamesAll_mentions _ hmem).1
          have hbody : ∀ item start, Statement.performAll (env'.bind name item) start body
              = Statement.performAll (env.bind name item) start body := by
            intro item start
            rw [hx]
            exact (performAll_congr body (henv.agree_bind hfree item) start).symm
          simp only [Statement.perform, hsource env env' henv, hbody, hiterable, codeSize_rename]
      · rcases performAll_rename body hy.2.2 with ⟨body', hbody, hinner⟩
        refine ⟨.forEach name iterable' body', ?_, fun env env' henv base => ?_⟩
        · rw [Statement.node, hiterable, hbody, Statement.node, Node.rename, if_neg hx]
          rfl
        · have hbind := henv.bind hx (fun heq => hy.2.1 heq.symm)
          simp only [Statement.perform, hsource env env' henv, hiterable, codeSize_rename,
            fun item start => hinner _ _ (hbind item) start]

theorem performAll_rename : (ss : List Statement) →
    y ∉ Node.mentionsAll (Statement.nodes ss) →
    ∃ ss' : List Statement, Statement.nodes ss' = Node.renameAll x y (Statement.nodes ss) ∧
      ∀ env env', Renamed x y env env' → ∀ base,
        Statement.performAll env' base ss' = Statement.performAll env base ss
  | [], _ => ⟨[], rfl, fun _ _ _ _ => rfl⟩
  | s :: ss, hy => by
      rw [Statement.nodes, Node.mentionsAll, List.mem_append, not_or] at hy
      rcases perform_rename s hy.1 with ⟨s', hnode, hperform⟩
      rcases performAll_rename ss hy.2 with ⟨ss', hnodes, hperforms⟩
      refine ⟨s' :: ss', congrArg₂ List.cons hnode hnodes, fun env env' henv base => ?_⟩
      simp only [Statement.performAll, hperform env env' henv, hperforms env env' henv, hnode,
        codeSize_rename]

end

end

/-- Statements that print the same everywhere and have code of the same size. -/
structure Statement.Alike (s s' : Statement) : Prop where
  size : s'.node.codeSize = s.node.codeSize
  perform : ∀ env base, s'.perform env base = s.perform env base

/-- Lists of statements that print the same everywhere and have code of the same size. -/
structure Template.Alike (t t' : Template) : Prop where
  size : t'.node.codeSize = t.node.codeSize
  perform : ∀ env base, Statement.performAll env base t' = Statement.performAll env base t

/-- A loop and the loop under a new name are alike. -/
theorem forEach_alike {x y : String} {iterable : Expression} {body : List Statement}
    (hy : y ∉ (Statement.forEach x iterable body).node.mentions) :
    ∃ s' : Statement,
      s'.node = .forEach y iterable.node ((Node.sequence (Statement.nodes body)).rename x y) ∧
        (Statement.forEach x iterable body).Alike s' := by
  rw [Statement.node, Node.mentions, List.mem_append, List.mem_cons, not_or, not_or] at hy
  rcases performAll_rename (x := x) body hy.2.2 with ⟨body', hnodes, hbody⟩
  refine ⟨.forEach y iterable body', ?_, ?_, fun env base => ?_⟩
  · rw [Statement.node, hnodes, Node.rename]
  · rw [Statement.node, Statement.node, hnodes, Node.codeSize, Node.codeSize, Node.codeSize,
      Node.codeSize, codeSizeAll_renameAll]
  · simp only [Statement.perform, fun item => hbody _ _ (env.renamed_bind x y item)]

/-- A tree with one node missing. -/
inductive Node.Context
  | hole
  | sequence (before : List Node) (inner : Context) (after : List Node)
  | print (inner : Context)
  | array (before : List Node) (inner : Context) (after : List Node)
  | left (op : Operator) (inner : Context) (rhs : Node)
  | right (op : Operator) (lhs : Node) (inner : Context)
  | test (inner : Context) (body : Node)
  | thenBody (condition : Node) (inner : Context)
  | source (name : String) (inner : Context) (body : Node)
  | loopBody (name : String) (iterable : Node) (inner : Context)

/-- The tree with a node put in. -/
def Node.Context.fill (n : Node) : Node.Context → Node
  | .hole => n
  | .sequence before inner after => .sequence (before ++ inner.fill n :: after)
  | .print inner => .print (inner.fill n)
  | .array before inner after => .array (before ++ inner.fill n :: after)
  | .left op inner rhs => .binary op (inner.fill n) rhs
  | .right op lhs inner => .binary op lhs (inner.fill n)
  | .test inner body => .ifThen (inner.fill n) body
  | .thenBody condition inner => .ifThen condition (inner.fill n)
  | .source name inner body => .forEach name (inner.fill n) body
  | .loopBody name iterable inner => .forEach name iterable (inner.fill n)

/-- What one of some nodes mentions, all of them do. -/
theorem mentionsAll_of_mem {name : String} {n : Node} {ns : List Node} (hn : n ∈ ns)
    (h : name ∈ n.mentions) :
    name ∈ Node.mentionsAll ns ∧ name ∈ Node.mentionsReversed ns := by
  induction ns with
  | nil => exact nomatch hn
  | cons m ns ih =>
      rcases List.mem_cons.mp hn with rfl | hn
      · exact ⟨List.mem_append_left _ h, List.mem_append_right _ h⟩
      · exact ⟨List.mem_append_right _ (ih hn).1, List.mem_append_left _ (ih hn).2⟩

/-- What a node mentions, the tree around it does. -/
theorem mentions_fill {name : String} {n : Node} (h : name ∈ n.mentions) (c : Node.Context) :
    name ∈ (c.fill n).mentions := by
  induction c with
  | hole => exact h
  | sequence before inner after ih =>
      exact (mentionsAll_of_mem (List.mem_append_right before List.mem_cons_self) ih).1
  | print inner ih => exact ih
  | array before inner after ih =>
      exact (mentionsAll_of_mem (List.mem_append_right before List.mem_cons_self) ih).2
  | left op inner rhs ih => exact List.mem_append_right _ ih
  | right op lhs inner ih => exact List.mem_append_left _ ih
  | test inner body ih => exact List.mem_append_left _ ih
  | thenBody condition inner ih => exact List.mem_append_right _ ih
  | source name inner body ih => exact List.mem_append_left _ ih
  | loopBody name iterable inner ih =>
      exact List.mem_append_right _ (List.mem_cons_of_mem _ ih)

section

variable {name name' : String} {source source' inside inside' : Node}

/-- No loop stands inside an expression. -/
theorem expression_ne_fill (c : Node.Context) (e : Expression) :
    e.node ≠ c.fill (.forEach name source inside) := by
  induction c generalizing e with
  | array before inner after ih =>
      cases e with
      | array elements =>
          intro h
          rw [Expression.node, Node.Context.fill, Node.array.injEq, Expression.nodes_eq_map] at h
          have hmem : inner.fill (.forEach name source inside) ∈ elements.map Expression.node :=
            h ▸ List.mem_append_right _ List.mem_cons_self
          rcases List.mem_map.mp hmem with ⟨element, _, helement⟩
          exact ih element helement
      | _ => simp only [Expression.node, Node.Context.fill, ne_eq, reduceCtorEq, not_false_eq_true]
  | left op inner rhs ih =>
      cases e with
      | binary op' lhs rhs' =>
          intro h
          rw [Expression.node, Node.Context.fill, Node.binary.injEq] at h
          exact ih lhs h.2.1
      | _ => simp only [Expression.node, Node.Context.fill, ne_eq, reduceCtorEq, not_false_eq_true]
  | right op lhs inner ih =>
      cases e with
      | binary op' lhs' rhs =>
          intro h
          rw [Expression.node, Node.Context.fill, Node.binary.injEq] at h
          exact ih rhs h.2.2
      | _ => simp only [Expression.node, Node.Context.fill, ne_eq, reduceCtorEq, not_false_eq_true]
  | _ =>
      cases e <;>
        simp only [Expression.node, Node.Context.fill, ne_eq, reduceCtorEq, not_false_eq_true]

/-- Statements among others may be replaced by alike ones. -/
theorem Template.Alike.append_cons {s s' : Statement} (h : s.Alike s')
    (front back : List Statement) : Template.Alike (front ++ s :: back) (front ++ s' :: back) := by
  refine ⟨?_, fun env base => ?_⟩
  · rw [Template.codeSize_node_append, Template.codeSize_node_append]
    simp only [Template.node, Node.codeSize, Statement.nodes, Node.codeSizeAll, h.size]
  · simp only [performAll_append, Statement.performAll, h.perform, h.size]

/-- A body may be replaced by one that is alike. -/
theorem Template.Alike.ifThen {t t' : Template} (h : t.Alike t') (condition : Expression) :
    (Statement.ifThen condition t).Alike (.ifThen condition t') := by
  have hsize : (Node.sequence (Statement.nodes t')).codeSize
      = (Node.sequence (Statement.nodes t)).codeSize := h.size
  refine ⟨?_, fun env base => ?_⟩
  · rw [Statement.node, Node.codeSize, hsize]
    rfl
  · simp only [Statement.perform, h.perform]

theorem Template.Alike.forEach {t t' : Template} (h : t.Alike t') (name : String)
    (iterable : Expression) :
    (Statement.forEach name iterable t).Alike (.forEach name iterable t') := by
  have hsize : (Node.sequence (Statement.nodes t')).codeSize
      = (Node.sequence (Statement.nodes t)).codeSize := h.size
  refine ⟨?_, fun env base => ?_⟩
  · rw [Statement.node, Node.codeSize, hsize]
    rfl
  · simp only [Statement.perform, h.perform]

/-- What is alike in a tree is alike around it, for a statement and for the sequence of a
    body. -/
theorem statement_fill
    (hloop : ∀ s : Statement, s.node = .forEach name source inside →
      ∃ s' : Statement, s'.node = .forEach name' source' inside' ∧ s.Alike s')
    (c : Node.Context) :
    (∀ s : Statement, s.node = c.fill (.forEach name source inside) →
      ∃ s' : Statement, s'.node = c.fill (.forEach name' source' inside') ∧ s.Alike s') ∧
    ∀ t : Template, t.node = c.fill (.forEach name source inside) →
      ∃ t' : Template, t'.node = c.fill (.forEach name' source' inside') ∧ t.Alike t' := by
  induction c with
  | hole => exact ⟨hloop, fun t h => Node.noConfusion h⟩
  | sequence before inner after ih =>
      constructor
      · intro s h
        cases s <;> exact Node.noConfusion h
      · intro t h
        rw [Template.node, Node.Context.fill, Node.sequence.injEq, Statement.nodes_eq_map] at h
        rcases List.map_eq_append_iff.mp h with ⟨front, rest, rfl, rfl, hrest⟩
        rcases List.map_eq_cons_iff.mp hrest with ⟨s, back, rfl, hs, rfl⟩
        rcases ih.1 s hs with ⟨s', hs', halike⟩
        refine ⟨front ++ s' :: back, ?_, .append_cons halike front back⟩
        rw [Template.node, Node.Context.fill, Statement.nodes_eq_map, List.map_append,
          List.map_cons, hs']
  | thenBody condition inner ih =>
      refine ⟨fun s h => ?_, fun t h => Node.noConfusion h⟩
      cases s with
      | ifThen condition' body =>
          rw [Statement.node, Node.Context.fill, Node.ifThen.injEq] at h
          rcases ih.2 body h.2 with ⟨body', hbody, halike⟩
          refine ⟨.ifThen condition' body', ?_, halike.ifThen condition'⟩
          rw [Statement.node, Node.Context.fill, h.1, ← hbody, Template.node]
      | _ => exact Node.noConfusion h
  | loopBody name iterable inner ih =>
      refine ⟨fun s h => ?_, fun t h => Node.noConfusion h⟩
      cases s with
      | forEach name' iterable' body =>
          rw [Statement.node, Node.Context.fill, Node.forEach.injEq] at h
          rcases ih.2 body h.2.2 with ⟨body', hbody, halike⟩
          refine ⟨.forEach name' iterable' body', ?_, halike.forEach name' iterable'⟩
          rw [Statement.node, Node.Context.fill, h.1, h.2.1, ← hbody, Template.node]
      | _ => exact Node.noConfusion h
  | print inner _ =>
      -- Where an expression belongs, there is no loop.
      refine ⟨fun s h => ?_, fun t h => Node.noConfusion h⟩
      cases s with
      | print e => exact absurd (Node.print.inj h) (expression_ne_fill inner e)
      | _ => exact Node.noConfusion h
  | test inner body _ =>
      refine ⟨fun s h => ?_, fun t h => Node.noConfusion h⟩
      cases s with
      | ifThen condition body =>
          exact absurd (Node.ifThen.inj h).1 (expression_ne_fill inner condition)
      | _ => exact Node.noConfusion h
  | source name inner body _ =>
      refine ⟨fun s h => ?_, fun t h => Node.noConfusion h⟩
      cases s with
      | forEach name iterable body =>
          exact absurd (Node.forEach.inj h).2.1 (expression_ne_fill inner iterable)
      | _ => exact Node.noConfusion h
  | array before inner after _ =>
      refine ⟨fun s h => ?_, fun t h => Node.noConfusion h⟩
      cases s <;> exact Node.noConfusion h
  | left op inner rhs _ =>
      refine ⟨fun s h => ?_, fun t h => Node.noConfusion h⟩
      cases s <;> exact Node.noConfusion h
  | right op lhs inner _ =>
      refine ⟨fun s h => ?_, fun t h => Node.noConfusion h⟩
      cases s <;> exact Node.noConfusion h

end

/-- In a tree that was parsed, the name of any loop may be replaced by one that is mentioned
    nowhere in the tree, in the loop and wherever its body refers to it. The program of the
    tree runs as before with any variables: it prints the same, or it fails in the same way
    at the same instruction. -/
theorem run_rename_loop {tokens : List Token} {c : Node.Context} {x y : String}
    {iterable body : Node} (hparse : parse tokens = .ok (c.fill (.forEach x iterable body)))
    (hy : y ∉ (c.fill (.forEach x iterable body)).mentions) (vars : Vars) :
    (c.fill (.forEach y iterable (body.rename x y))).run vars
      = (c.fill (.forEach x iterable body)).run vars := by
  rcases template_of_parse hparse with ⟨t, ht⟩
  have hloop : ∀ s : Statement, s.node = .forEach x iterable body → ∃ s' : Statement,
      s'.node = .forEach y iterable (body.rename x y) ∧ s.Alike s' := by
    intro s hs
    cases s with
    | forEach name source inside =>
        rw [Statement.node, Node.forEach.injEq] at hs
        rcases hs with ⟨rfl, rfl, rfl⟩
        exact forEach_alike fun hmem => hy (mentions_fill hmem c)
    | _ => exact Node.noConfusion hs
  rcases (statement_fill hloop c).2 t ht.symm with ⟨t', ht', halike⟩
  have houtput : t'.output vars = t.output vars := halike.perform _ 0
  rw [← ht', ht, (run_node_eq_output t' vars).2, (run_node_eq_output t vars).2, houtput]

/-- The loop inside is over the same name: its iterable is renamed, and its body is not. -/
theorem run_rename_loop_shadowed :
    let tokens := [.tagOpen, .keyword .forWord, .identifier "x", .keyword .inWord, .bracketOpen,
      .bracketOpen, .integer "1", .bracketClose, .bracketClose, .tagClose,
      .tagOpen, .keyword .forWord, .identifier "x", .keyword .inWord, .identifier "x", .tagClose,
      .tagOpen, .identifier "x", .tagClose, .tagOpen, .keyword .endWord, .tagClose,
      .tagOpen, .identifier "x", .tagClose, .tagOpen, .keyword .endWord, .tagClose]
    let items := Node.array [.array [.integer 1]]
    let printed := Node.sequence [.print (.lookup "x")]
    let root := Node.sequence
      [.forEach "x" items (.sequence [.forEach "x" (.lookup "x") printed, .print (.lookup "x")])]
    let renamed := Node.sequence
      [.forEach "z" items (.sequence [.forEach "x" (.lookup "z") printed, .print (.lookup "z")])]
    let vars := Vars.ofList [("x", .integer 7), ("z", .nil)]
    parse tokens = .ok root ∧ "z" ∉ root.mentions ∧ renamed.run vars = root.run vars := by
  intro tokens items printed root renamed vars
  have hparse : parse tokens = .ok root := rfl
  have hz : "z" ∉ root.mentions := by decide
  exact ⟨hparse, hz,
    @run_rename_loop tokens (.sequence [] .hole []) "x" "z" items _ hparse hz vars⟩

end Stencil
