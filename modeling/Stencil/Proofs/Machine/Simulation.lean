import Stencil.Proofs.Machine.Runs
import Stencil.Proofs.Machine.Scopes
import Stencil.Proofs.Template

/-!
# Compiled Templates Print What Templates Mean

The machine that runs a compiled template does what `Template.output` says.

The code of an expression leaves its value on the stack, above what was there, and
touches nothing else. The code of a statement leaves the stack and the scopes as they
were and appends its text to the output. Either way the run stands right behind the
code, so the code of the next part takes over, and where evaluation fails, the run
ends at the instruction that evaluation counted.

What ties names to keys is `Scopes.Binds`: every key of the finished table is bound to
what the environment binds its name to. Entering a loop keeps it, because no two keys
of a table have one name.

## Main definitions

* `Scopes.Binds`: The scopes bind keys as an environment binds their names.
* `State.pushed`: A state with values on the stack.
* `State.printed`: A state with more output.

## Theorems

* `binds_ofRoot`: The root scope of variables binds their names.
* `binds_push`: A loop's scope binds its name over the scopes below.
* `evaluate_yields`: The code of an expression pushes its value.
* `loop_yields`: A loop that has started prints its body's text for each item left.
* `perform_yields`: The code of a statement prints its text.
* `compile_ends`: A compiled template ends with the template's output.
* `run_node_eq_output`: Running the tree of a template gives its output.
-/

namespace Stencil

open Program

/-- Every key of the table is bound to what the environment binds its name to. -/
def Scopes.Binds (scopes : Scopes) (table : Names) (env : Environment) : Prop :=
  ∀ key name, table.name? key = some name → scopes.lookup key = env name

/-- The root scope of variables binds the names as the variables do. -/
theorem binds_ofRoot (p : Program) (vars : Vars) :
    (Scopes.ofRoot (p.root vars)).Binds p.names (.ofVars vars) := by
  intro key name hname
  simp only [Scopes.ofRoot, Scopes.lookup, List.find?_nil, Program.root, hname, Option.bind_some,
    Environment.ofVars]

/-- A loop's scope binds its name to the current item, and leaves every other name to the
    scopes below. -/
theorem binds_push {scopes : Scopes} {table : Names} {env : Environment} {scope : Scope}
    {name : String} (h : scopes.Binds table env) (hname : table.name? scope.key = some name) :
    (scopes.push scope).Binds table (env.bind name scope.current) := by
  intro key other hother
  rw [Scopes.lookup_push, Environment.bind]
  by_cases hkey : scope.key = key
  · -- The key is the loop's, and so the name is the loop's.
    rw [← hkey, hname, Option.some.injEq] at hother
    rw [if_pos hkey, if_pos hother.symm]
  · -- Another key has another name, or the two keys would be the same.
    have hne : other ≠ name := by
      rintro rfl
      exact hkey (name?_inj hname hother)
    rw [if_neg hkey, if_neg hne]
    exact h key other hother

/-- The state at an address with values on top of the stack. -/
def State.pushed (s : State) (pc : Nat) (vs : List Value) : State :=
  { s with pc := pc, stack := vs ++ s.stack }

/-- The state at an address with more text printed. -/
def State.printed (s : State) (pc : Nat) (text : String) : State :=
  { s with pc := pc, output := s.output ++ text }

section

variable {p : Program} {env : Environment}

/-- Code of a node with more code behind it stands at its address, and the rest behind
    as many instructions as the node has. -/
theorem placed_layout {n : Node} {at_ base : Nat} {names : Names} {back : List Instruction}
    (h : p.Placed base (layout n at_ names ++ back)) :
    p.Placed base (layout n at_ names) ∧ p.Placed (base + n.codeSize) back := by
  have hparts := placed_append h
  rwa [layout_length] at hparts

mutual

/-- The code of an expression pushes its value, or fails as its evaluation does. -/
theorem evaluate_yields : (e : Expression) → ∀ {names : Names} {s : State},
    p.Placed s.pc (layout e.node s.pc names) → (mention e.node names).toList <+: p.names.toList →
    s.scopes.Binds p.names env →
    p.Yields s (fun v => s.pushed (s.pc + e.node.codeSize) [v]) (e.evaluate env s.pc)
  | .integer n, names, s, hp, hn, hs => .ok (step_eq rfl (placed_cons hp).1)
  | .nil, names, s, hp, hn, hs => .ok (step_eq rfl (placed_cons hp).1)
  | .lookup name, names, s, hp, hn, hs => by
      -- The key that the code asks for is bound to what the name is bound to.
      have hbound := hs _ _ (name?_keyOf hn)
      simp only [Expression.evaluate, ← hbound]
      exact .ok (step_eq rfl (placed_cons hp).1)
  | .array elements, names, s, hp, hn, hs => by
      simp only [Expression.node, layout, mention] at hp hn
      rcases placed_append hp with ⟨hitems, hmake⟩
      rw [layoutReversed_length] at hmake
      refine (evaluateReversed_yields elements hitems hn hs).bind fun items hitems => .ok ?_
      -- As many values were pushed as the instruction takes.
      have hlen := Expression.length_evaluateReversed hitems
      rw [step_eq rfl (placed_cons hmake).1]
      simp only [State.execute, State.pushed, Expression.length_nodes, ← hlen, List.length_append,
        Nat.le_add_right, if_true, List.take_left, List.drop_left]
      rfl
  | .binary op lhs rhs, names, s, hp, hn, hs => by
      simp only [Expression.node, layout, mention, layout_length, Node.codeSize,
        ← Nat.add_assoc] at hp hn ⊢
      rcases placed_layout hp with ⟨hright, hp⟩
      rcases placed_layout hp with ⟨hleft, hop⟩
      -- The right operand's code comes first, and its value lies below the left one's.
      have hrightNames := (prefix_mention lhs.node _).trans hn
      refine (evaluate_yields rhs hright hrightNames hs).bind fun right _ => ?_
      refine (evaluate_yields lhs (s := s.pushed _ [right]) hleft hn hs).bind fun left _ => ?_
      let t := s.pushed (s.pc + rhs.node.codeSize + lhs.node.codeSize) [left, right]
      have hstep : p.step t = t.execute (.operate op) := step_eq rfl (placed_cons hop).1
      simp only [State.execute, t, State.pushed, List.cons_append, List.nil_append] at hstep
      cases hres : op.apply left right with
      | ok v =>
          simp only [hres] at hstep
          exact .ok hstep
      | error kind =>
          simp only [hres] at hstep
          exact .error hstep

/-- The code of expressions from the last to the first pushes their values, the first on
    top. -/
theorem evaluateReversed_yields : (es : List Expression) → ∀ {names : Names} {s : State},
    p.Placed s.pc (layoutReversed (Expression.nodes es) s.pc names) →
    (mentionReversed (Expression.nodes es) names).toList <+: p.names.toList →
    s.scopes.Binds p.names env →
    p.Yields s (fun vs => s.pushed (s.pc + Node.codeSizeAll (Expression.nodes es)) vs)
      (Expression.evaluateReversed env s.pc es)
  | [], names, s, hp, hn, hs => .refl
  | e :: es, names, s, hp, hn, hs => by
      simp only [Expression.nodes, layoutReversed, mentionReversed, layoutReversed_length] at hp hn
      rcases placed_append hp with ⟨hlater, hfirst⟩
      rw [layoutReversed_length] at hfirst
      -- The first value is pushed last and comes to lie on top.
      have hlaterNames := (prefix_mention e.node _).trans hn
      refine (evaluateReversed_yields es hlater hlaterNames hs).bind fun later _ => ?_
      refine (evaluate_yields e (s := s.pushed _ later) hfirst hn hs).bind fun first _ => ?_
      have hsize : s.pc + Node.codeSizeAll (Expression.nodes (e :: es))
          = s.pc + Node.codeSizeAll (Expression.nodes es) + e.node.codeSize := by
        simp only [Expression.nodes, Node.codeSizeAll]
        omega
      rw [hsize]
      exact .here rfl

end

/-- A loop that has started prints its body's text for the current item and for each
    that is still to come, and is left without its scope. -/
theorem loop_yields {scopes : Scopes} {key start check : Nat} {body : Value → Except Fault String}
    (hcheck : p.code[check]? = some (.checkFor start))
    (hbody : ∀ (s : State) (scope : Scope), s.pc = start → s.scopes = scopes.push scope →
      scope.key = key → p.Yields s (s.printed check) (body scope.current))
    (items : List Value) : ∀ (s : State) (scope : Scope), s.pc = start →
      s.scopes = scopes.push scope → scope.key = key → scope.upcoming = items →
      p.Yields s (fun text => { s.printed (check + 1) text with scopes := scopes })
        (forItems body (scope.current :: items)) := by
  induction items with
  | nil =>
      intro s scope hpc hscopes hkey hup
      refine (hbody s scope hpc hscopes hkey).bind fun first _ => ?_
      -- The check finds no further item and drops the scope.
      have hstep : p.step (s.printed check first)
          = .next { s.printed (check + 1) first with scopes := scopes } := by
        rw [step_eq rfl hcheck]
        simp only [State.execute, State.checkLoop, State.printed, hscopes, Scopes.innermost?,
          Scopes.push, List.head?_cons, Scope.advance?, hup, Scopes.pop, List.tail_cons]
      refine .of_step hstep (.here ?_)
      simp only [State.printed, String.append_empty]
  | cons v vs ih =>
      intro s scope hpc hscopes hkey hup
      refine (hbody s scope hpc hscopes hkey).bind fun first _ => ?_
      -- The check binds the next item and goes back to the start of the body.
      let next : Scope := ⟨scope.key, scope.current :: scope.passed, v, vs⟩
      let t : State := { s.printed start first with scopes := scopes.push next }
      have hstep : p.step (s.printed check first) = .next t := by
        rw [step_eq rfl hcheck]
        simp only [State.execute, State.checkLoop, State.printed, hscopes, Scopes.innermost?,
          Scopes.push, List.head?_cons, Scope.advance?, hup, Scopes.replace, List.tail_cons, t,
          next]
      refine .of_step hstep ((ih t next rfl rfl hkey rfl).bind fun later _ => .here ?_)
      simp only [t, State.printed, String.append_assoc]

mutual

/-- The code of a statement prints its text, or fails as the statement does. -/
theorem perform_yields : (st : Statement) → ∀ {env : Environment} {names : Names} {s : State},
    p.Placed s.pc (layout st.node s.pc names) → (mention st.node names).toList <+: p.names.toList →
    s.scopes.Binds p.names env →
    p.Yields s (s.printed (s.pc + st.node.codeSize)) (st.perform env s.pc)
  | .text text, env, names, s, hp, hn, hs => .ok (step_eq rfl (placed_cons hp).1)
  | .print e, env, names, s, hp, hn, hs => by
      simp only [Statement.node, layout, mention] at hp hn
      rcases placed_layout hp with ⟨he, hprint⟩
      refine (evaluate_yields e he hn hs).bind fun v _ => .ok ?_
      let t := s.pushed (s.pc + e.node.codeSize) [v]
      exact step_eq (s := t) rfl (placed_cons hprint).1
  | .ifThen condition body, env, names, s, hp, hn, hs => by
      simp only [Statement.node, layout, mention, layout_length, layoutAll_length, Node.codeSize,
        ← Nat.add_assoc] at hp hn ⊢
      rcases placed_layout hp with ⟨htest, hp⟩
      rcases placed_cons hp with ⟨hjump, hinner⟩
      have htestNames := (prefix_mentionAll (Statement.nodes body) _).trans hn
      refine (evaluate_yields condition htest htestNames hs).bind fun v _ => ?_
      have hstep := step_eq (s := s.pushed (s.pc + condition.node.codeSize) [v]) rfl hjump
      by_cases hv : v = .nil
      · -- The condition does not hold, and the jump goes behind the body.
        subst hv
        rw [if_pos rfl]
        refine .of_step hstep (.here ?_)
        simp only [State.printed, String.append_empty]
        rfl
      · -- The condition holds, and the body is entered with the stack at the start.
        rw [if_neg hv]
        have htruthy : v.isTruthy = true := by
          cases v with
          | nil => exact absurd rfl hv
          | integer n => rfl
          | text text => rfl
          | array items => rfl
        let t : State := { s with pc := s.pc + condition.node.codeSize + 1 }
        have hnext : p.step (s.pushed (s.pc + condition.node.codeSize) [v]) = .next t := by
          rw [hstep]
          simp only [State.execute, State.pushed, List.cons_append, List.nil_append, htruthy,
            if_true]
          rfl
        exact .of_step hnext (performAll_yields body (s := t) hinner hn hs)
  | .forEach name iterable body, env, names, s, hp, hn, hs => by
      simp only [Statement.node, layout, mention, layout_length, layoutAll_length, Node.codeSize,
        ← Nat.add_assoc] at hp hn ⊢
      rcases placed_layout hp with ⟨hsource, hp⟩
      rcases placed_cons hp with ⟨hbegin, hp⟩
      rcases placed_append hp with ⟨hinner, hcheck⟩
      rw [layoutAll_length] at hcheck
      have hloopNames := (prefix_mentionAll (Statement.nodes body) _).trans hn
      have hsourceNames := (prefix_intern _ name).trans hloopNames
      refine (evaluate_yields iterable hsource hsourceNames hs).bind fun v _ => ?_
      have hstep := step_eq (s := s.pushed (s.pc + iterable.node.codeSize) [v]) rfl hbegin
      -- A loop over anything but an array fails at its beginning.
      cases v with
      | nil => exact .error hstep
      | integer n => exact .error hstep
      | text text => exact .error hstep
      | array items =>
          cases items with
          | nil =>
              -- There are no items, and the jump goes behind the loop.
              refine .of_step hstep (.here ?_)
              simp only [State.printed, String.append_empty]
              rfl
          | cons item items =>
              -- The body runs in the scopes of the loop's start and one more.
              refine .of_step hstep ?_
              refine loop_yields (placed_cons hcheck).1 ?_ items _
                ⟨(mention iterable.node names).keyOf name, [], item, items⟩ rfl rfl rfl rfl
              intro t scope htpc htscopes htkey
              have hname : p.names.name? scope.key = some name := by
                rw [htkey]
                exact name?_keyOf hloopNames
              have hbinds := binds_push hs hname
              rw [← htscopes] at hbinds
              rw [← htpc] at hinner ⊢
              exact performAll_yields body hinner hn hbinds

/-- The code of statements in order prints their texts. -/
theorem performAll_yields : (ss : List Statement) → ∀ {env : Environment} {names : Names}
    {s : State}, p.Placed s.pc (layoutAll (Statement.nodes ss) s.pc names) →
    (mentionAll (Statement.nodes ss) names).toList <+: p.names.toList →
    s.scopes.Binds p.names env →
    p.Yields s (s.printed (s.pc + Node.codeSizeAll (Statement.nodes ss)))
      (Statement.performAll env s.pc ss)
  | [], env, names, s, hp, hn, hs => by
      refine .here ?_
      simp only [State.printed, String.append_empty]
      rfl
  | st :: ss, env, names, s, hp, hn, hs => by
      simp only [Statement.nodes, layoutAll, mentionAll, layout_length, Node.codeSizeAll,
        ← Nat.add_assoc] at hp hn ⊢
      rcases placed_layout hp with ⟨hfirst, hrest⟩
      -- The table of names after the first statement begins the one after all of them.
      have hfirstNames := (prefix_mentionAll (Statement.nodes ss) _).trans hn
      refine (perform_yields st hfirst hfirstNames hs).bind fun first _ => ?_
      let t := s.printed (s.pc + st.node.codeSize) first
      refine (performAll_yields ss (s := t) hrest hn hs).bind fun later _ => .here ?_
      simp only [t, State.printed, String.append_assoc]

end

end

/-- The run of a compiled template ends with the template's output. -/
theorem compile_ends (t : Template) (vars : Vars) :
    (compile t.node).Ends ((compile t.node).start vars) (t.output vars) := by
  let p := compile t.node
  have hp := p.placed_toList
  rw [compile_code] at hp
  simp only [Template.node, layout] at hp
  rcases placed_append hp with ⟨hcode, hstop⟩
  rw [layoutAll_length] at hstop
  have hnames : (mentionAll (Statement.nodes t) .empty).toList <+: p.names.toList := by
    simp only [p, compile_names, Template.node, mention]
    exact List.prefix_rfl
  have hyields := performAll_yields t (s := p.start vars) hcode hnames (binds_ofRoot p vars)
  rw [Template.output]
  cases hres : Statement.performAll (.ofVars vars) 0 t with
  | error f =>
      rw [show (p.start vars).pc = 0 from rfl, hres] at hyields
      exact hyields
  | ok text =>
      -- The run stands at the stop with the whole text printed.
      rw [show (p.start vars).pc = 0 from rfl, hres] at hyields
      refine ⟨_, hyields, ?_⟩
      rw [step_eq rfl (placed_cons hstop).1]
      simp only [State.execute, State.printed, Program.start, String.empty_append]

/-- Running the tree of a template halts, with what the template prints or its first
    fault. -/
theorem run_node_eq_output (t : Template) (vars : Vars) :
    (∃ n, (compile t.node).runFor n ((compile t.node).start vars) = some (t.output vars)) ∧
      t.node.run vars = t.output vars :=
  ⟨(compile_ends t vars).runFor, (compile_ends t vars).runToEnd_eq _⟩

end Stencil
