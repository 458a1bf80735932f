import Stencil.Code.Layout
import Stencil.Machine

/-!
# Halting

Every compiled program halts, whatever tree it was compiled from, so it can be run
to its end with no bound on the steps.

A raw program may jump anywhere and run for ever. Compiled code only jumps within
the block it belongs to, and back only at the end of a loop, whose scope has one
item fewer to come each time. The code of a node is therefore left at its end with
the scopes it was entered with, unless the run halts on the way. Nothing is said
about the stack: in a tree that is put together badly a loop may pop what it did not
push, but that can only end the run earlier.

## Main definitions

* `Program.Follows`: One state is a step after another.
* `Program.Leads`: A run from a state halts or comes to a state with a property.
* `Program.Halts`: A run from a state halts.
* `Program.Placed`: A list of instructions stands at an address of a program.
* `Program.runToEnd`: The outcome of a run that halts.
* `Node.run`: The outcome of a tree's program.

## Theorems

* `Leads.bind`: What leads to a state that leads on leads on.
* `placed_append`: Two lists stand one behind the other where their join stands.
* `layout_leads`: The code of a node is left at its end with the scopes at its start.
* `compile_halts`: A compiled program halts with any variables.
-/

namespace Stencil

namespace Program

/-- The first state is one step after the second. -/
def Follows (p : Program) (t s : State) : Prop :=
  p.step s = .next t

/-- A run from the state halts: no infinite run starts there. -/
def Halts (p : Program) (s : State) : Prop :=
  Acc p.Follows s

/-- A run from the state halts or comes to a state with the property. -/
inductive Leads (p : Program) (post : State → Prop) : State → Prop
  | here {s : State} : post s → Leads p post s
  | halt {s : State} {o : Outcome} : p.step s = .halt o → Leads p post s
  | step {s t : State} : p.step s = .next t → Leads p post t → Leads p post s

/-- What leads to a property that leads on leads on. -/
theorem Leads.bind {p : Program} {post post' : State → Prop} {s : State} (h : p.Leads post s)
    (hnext : ∀ t, post t → p.Leads post' t) : p.Leads post' s := by
  induction h with
  | here hpost => exact hnext _ hpost
  | halt hstep => exact .halt hstep
  | step hstep _ ih => exact .step hstep ih

/-- A run that leads to states from where it halts halts. -/
theorem Leads.halts {p : Program} {post : State → Prop} {s : State} (h : p.Leads post s)
    (hpost : ∀ t, post t → p.Halts t) : p.Halts s := by
  induction h with
  | here hs => exact hpost _ hs
  | halt hstep =>
      refine Acc.intro _ fun t ht => ?_
      rw [Follows, hstep] at ht
      exact Transition.noConfusion ht
  | step hstep _ ih =>
      refine Acc.intro _ fun t ht => ?_
      rw [Follows, hstep, Transition.next.injEq] at ht
      exact ht ▸ ih

/-- The instructions stand in the program from an address on. -/
def Placed (p : Program) (base : Nat) (code : List Instruction) : Prop :=
  ∀ i x, code[i]? = some x → p.code[base + i]? = some x

/-- Two lists of instructions stand one behind the other where their join stands. -/
theorem placed_append {p : Program} {base : Nat} {front back : List Instruction}
    (h : p.Placed base (front ++ back)) :
    p.Placed base front ∧ p.Placed (base + front.length) back := by
  refine ⟨fun i x hx => h i x ?_, fun i x hx => ?_⟩
  · rw [List.getElem?_append_left (List.getElem?_eq_some_iff.mp hx).1]
    exact hx
  · rw [Nat.add_assoc]
    refine h _ x ?_
    rw [List.getElem?_append_right (Nat.le_add_right _ _), Nat.add_sub_cancel_left]
    exact hx

/-- Where an instruction stands in front of others, it is at the address itself and
    they are behind it. -/
theorem placed_cons {p : Program} {base : Nat} {i : Instruction} {back : List Instruction}
    (h : p.Placed base (i :: back)) :
    p.code[base]? = some i ∧ p.Placed (base + 1) back :=
  ⟨h 0 i rfl, (@placed_append p base [i] back h).2⟩

/-- The whole code of a program stands at address zero. -/
theorem placed_toList (p : Program) : p.Placed 0 p.code.toList := by
  intro i x hx
  rw [Nat.zero_add, ← Array.getElem?_toList]
  exact hx

/-- The step at a known instruction. -/
theorem step_eq {p : Program} {s : State} {base : Nat} {i : Instruction} (hpc : s.pc = base)
    (h : p.code[base]? = some i) : p.step s = s.execute i := by
  simp only [step, hpc, h]

/-- The run stands at an address, with the scopes of an earlier state. -/
def Exits (s : State) (stop : Nat) (t : State) : Prop :=
  t.pc = stop ∧ t.scopes = s.scopes

/-- A transition that halts or only moves on to the next instruction, scopes untouched. -/
def MovesOn (s : State) (r : Transition) : Prop :=
  (∃ o, r = .halt o) ∨ ∃ t, r = .next t ∧ Exits s (s.pc + 1) t

theorem movesOn_fail (s : State) (kind : FaultKind) : MovesOn s (s.fail kind) :=
  .inl ⟨_, rfl⟩

theorem movesOn_withStack (s : State) (stack : List Value) :
    MovesOn s (.next (s.withStack stack)) :=
  .inr ⟨_, rfl, rfl, rfl⟩

/-- An instruction that neither jumps nor opens or closes a scope moves on. -/
theorem execute_movesOn (s : State) (i : Instruction)
    (hjump : ∀ target, i ≠ .jumpIfFalse target) (hbegin : ∀ key target, i ≠ .beginFor key target)
    (hcheck : ∀ target, i ≠ .checkFor target) : MovesOn s (s.execute i) := by
  cases i with
  | stop => exact .inl ⟨_, rfl⟩
  | pushInteger n => exact movesOn_withStack _ _
  | pushNil => exact movesOn_withStack _ _
  | operate op =>
      simp only [State.execute]
      split
      · split
        · exact movesOn_withStack _ _
        · exact movesOn_fail _ _
      · exact movesOn_fail _ _
  | printText text => exact .inr ⟨_, rfl, rfl, rfl⟩
  | printTop =>
      simp only [State.execute]
      split
      · exact .inr ⟨_, rfl, rfl, rfl⟩
      · exact movesOn_fail _ _
  | lookup key => exact movesOn_withStack _ _
  | makeArray count =>
      simp only [State.execute]
      split
      · exact movesOn_withStack _ _
      · exact movesOn_fail _ _
  | jumpIfFalse target => exact absurd rfl (hjump target)
  | beginFor key target => exact absurd rfl (hbegin key target)
  | checkFor target => exact absurd rfl (hcheck target)

/-- Such an instruction leads to the next address. -/
theorem leads_plain {p : Program} {s : State} {i : Instruction} (hcode : p.code[s.pc]? = some i)
    (hjump : ∀ target, i ≠ .jumpIfFalse target) (hbegin : ∀ key target, i ≠ .beginFor key target)
    (hcheck : ∀ target, i ≠ .checkFor target) : p.Leads (Exits s (s.pc + 1)) s := by
  have hstep := step_eq rfl hcode
  rcases execute_movesOn s i hjump hbegin hcheck with ⟨o, ho⟩ | ⟨t, ht, hexit⟩
  · exact .halt (hstep.trans ho)
  · exact .step (hstep.trans ht) (.here hexit)

/-- Code that leads to its end, with one such instruction behind it, leads to the end
    of both. -/
theorem leads_then_plain {p : Program} {s : State} {stop : Nat} {i : Instruction}
    (h : p.Leads (Exits s stop) s) (hcode : p.code[stop]? = some i)
    (hjump : ∀ target, i ≠ .jumpIfFalse target) (hbegin : ∀ key target, i ≠ .beginFor key target)
    (hcheck : ∀ target, i ≠ .checkFor target) : p.Leads (Exits s (stop + 1)) s := by
  refine h.bind fun t ⟨hpc, hscopes⟩ => ?_
  subst hpc
  refine (leads_plain hcode hjump hbegin hcheck).bind fun u ⟨hu, hus⟩ => ?_
  exact .here ⟨hu, hus.trans hscopes⟩

/-- A loop that has started leads to its end without its scope, if its body leads from
    each start to the check. Each round has one item fewer to come. -/
theorem leads_loop {p : Program} {start check : Nat}
    (hbody : ∀ s : State, s.pc = start → p.Leads (Exits s check) s)
    (hcheck : p.code[check]? = some (.checkFor start)) (upcoming : List Value) :
    ∀ (s : State) (scope : Scope), s.pc = start → s.scopes.innermost? = some scope →
      scope.upcoming = upcoming →
      p.Leads (fun t => t.pc = check + 1 ∧ t.scopes = s.scopes.pop) s := by
  induction upcoming with
  | nil =>
      intro s scope hpc hscope hup
      -- The last item was bound before this round: the check drops the scope.
      refine (hbody s hpc).bind fun t ⟨htpc, hts⟩ => ?_
      have hstep : p.step t = .next { t with pc := t.pc + 1, scopes := t.scopes.pop } := by
        rw [step_eq htpc hcheck]
        simp only [State.execute, State.checkLoop, hts, hscope, Scope.advance?, hup]
      refine .step hstep (.here ⟨?_, ?_⟩)
      · simp only [htpc]
      · simp only [hts]
  | cons v vs ih =>
      intro s scope hpc hscope hup
      -- The check binds the next item and goes back to the start of the body.
      refine (hbody s hpc).bind fun t ⟨htpc, hts⟩ => ?_
      let scope' : Scope := ⟨scope.key, scope.current :: scope.passed, v, vs⟩
      let u : State := { t with pc := start, scopes := t.scopes.replace scope' }
      have hstep : p.step t = .next u := by
        rw [step_eq htpc hcheck]
        simp only [State.execute, State.checkLoop, hts, hscope, Scope.advance?, hup, u, scope']
      refine .step hstep ((ih u scope' rfl rfl rfl).bind fun w ⟨hwpc, hws⟩ => ?_)
      refine .here ⟨hwpc, hws.trans ?_⟩
      simp only [u, Scopes.pop, Scopes.replace, List.tail_cons, hts]

mutual

/-- The code of a node is left at its end, with the scopes at its start. -/
theorem layout_leads (p : Program) : (n : Node) → ∀ (base : Nat) (names : Names),
    p.Placed base (layout n base names) → ∀ s : State, s.pc = base →
      p.Leads (Exits s (base + (layout n base names).length)) s
  | .sequence statements, base, names, hp, s, hpc => by
      simp only [layout] at hp ⊢
      exact layoutAll_leads p statements base names hp s hpc
  | .text text, base, names, hp, s, hpc => by
      subst hpc
      exact leads_plain (placed_cons hp).1 nofun nofun nofun
  | .print e, base, names, hp, s, hpc => by
      simp only [layout, List.length_append] at hp ⊢
      rcases placed_append hp with ⟨he, hlast⟩
      exact leads_then_plain (layout_leads p e base names he s hpc) (placed_cons hlast).1
        nofun nofun nofun
  | .integer n, base, names, hp, s, hpc => by
      subst hpc
      exact leads_plain (placed_cons hp).1 nofun nofun nofun
  | .nil, base, names, hp, s, hpc => by
      subst hpc
      exact leads_plain (placed_cons hp).1 nofun nofun nofun
  | .lookup name, base, names, hp, s, hpc => by
      subst hpc
      exact leads_plain (placed_cons hp).1 nofun nofun nofun
  | .array elements, base, names, hp, s, hpc => by
      simp only [layout, List.length_append] at hp ⊢
      rcases placed_append hp with ⟨he, hlast⟩
      exact leads_then_plain (layoutReversed_leads p elements base names he s hpc)
        (placed_cons hlast).1 nofun nofun nofun
  | .binary op lhs rhs, base, names, hp, s, hpc => by
      simp only [layout, List.length_append, ← Nat.add_assoc] at hp ⊢
      rcases placed_append hp with ⟨hright, hp⟩
      rcases placed_append hp with ⟨hleft, hlast⟩
      -- The right operand's code, then the left one's, then the operator.
      refine leads_then_plain ?_ (placed_cons hlast).1 nofun nofun nofun
      refine (layout_leads p rhs base names hright s hpc).bind fun t ⟨htpc, hts⟩ => ?_
      refine (layout_leads p lhs _ _ hleft t htpc).bind fun u ⟨hupc, hus⟩ => ?_
      exact .here ⟨hupc, hus.trans hts⟩
  | .ifThen condition body, base, names, hp, s, hpc => by
      simp only [layout, List.length_append, List.length_cons, ← Nat.add_assoc] at hp ⊢
      rcases placed_append hp with ⟨htest, hp⟩
      rcases placed_cons hp with ⟨hjump, hinner⟩
      refine (layout_leads p condition base names htest s hpc).bind fun t ⟨htpc, hts⟩ => ?_
      have hstep := step_eq htpc hjump
      simp only [State.execute] at hstep
      split at hstep
      · rename_i v stack _
        split at hstep
        · -- The condition holds, and the body is entered.
          have hbody := layout_leads p body (base + (layout condition base names).length + 1) _
            hinner (t.withStack stack) (congrArg (· + 1) htpc)
          refine .step hstep (hbody.bind fun u ⟨hupc, hus⟩ => ?_)
          refine .here ⟨?_, hus.trans hts⟩
          rw [hupc]
          omega
        · -- The condition does not hold, and the jump goes behind the body.
          refine .step hstep (.here ⟨?_, hts⟩)
          simp only
          omega
      · exact .halt hstep
  | .forEach name iterable body, base, names, hp, s, hpc => by
      simp only [layout, List.length_append, List.length_cons, List.length_nil, ← Nat.add_assoc,
        Nat.add_zero] at hp ⊢
      rcases placed_append hp with ⟨hsource, hp⟩
      rcases placed_cons hp with ⟨hbegin, hp⟩
      rcases placed_append hp with ⟨hinner, hp⟩
      have hcheck := (placed_cons hp).1
      refine (layout_leads p iterable base names hsource s hpc).bind fun t ⟨htpc, hts⟩ => ?_
      have hstep := step_eq htpc hbegin
      simp only [State.execute] at hstep
      split at hstep
      · simp only [State.beginLoop] at hstep
        split at hstep
        · split at hstep
          · -- There are items, and the loop starts.
            rename_i scope hscope
            have hbody := layout_leads p body (base + (layout iterable base names).length + 1) _
              hinner
            refine .step hstep ((leads_loop hbody hcheck scope.upcoming _ scope
              (congrArg (· + 1) htpc) rfl rfl).bind fun u ⟨hupc, hus⟩ => ?_)
            refine .here ⟨?_, hus.trans hts⟩
            rw [hupc]
            omega
          · -- There are none, and the jump goes behind the loop.
            refine .step hstep (.here ⟨?_, hts⟩)
            simp only
            omega
        · exact .halt hstep
      · exact .halt hstep

/-- The code of nodes in order is left at its end, with the scopes at its start. -/
theorem layoutAll_leads (p : Program) : (ns : List Node) → ∀ (base : Nat) (names : Names),
    p.Placed base (layoutAll ns base names) → ∀ s : State, s.pc = base →
      p.Leads (Exits s (base + (layoutAll ns base names).length)) s
  | [], base, names, hp, s, hpc => .here ⟨hpc, rfl⟩
  | n :: ns, base, names, hp, s, hpc => by
      simp only [layoutAll, List.length_append, ← Nat.add_assoc] at hp ⊢
      rcases placed_append hp with ⟨hfirst, hrest⟩
      refine (layout_leads p n base names hfirst s hpc).bind fun t ⟨htpc, hts⟩ => ?_
      refine (layoutAll_leads p ns _ _ hrest t htpc).bind fun u ⟨hupc, hus⟩ => ?_
      exact .here ⟨hupc, hus.trans hts⟩

/-- The code of nodes from the last to the first is left at its end, with the scopes at
    its start. -/
theorem layoutReversed_leads (p : Program) : (ns : List Node) → ∀ (base : Nat) (names : Names),
    p.Placed base (layoutReversed ns base names) → ∀ s : State, s.pc = base →
      p.Leads (Exits s (base + (layoutReversed ns base names).length)) s
  | [], base, names, hp, s, hpc => .here ⟨hpc, rfl⟩
  | n :: ns, base, names, hp, s, hpc => by
      simp only [layoutReversed, List.length_append, ← Nat.add_assoc] at hp ⊢
      rcases placed_append hp with ⟨hlater, hfirst⟩
      refine (layoutReversed_leads p ns base names hlater s hpc).bind fun t ⟨htpc, hts⟩ => ?_
      refine (layout_leads p n _ _ hfirst t htpc).bind fun u ⟨hupc, hus⟩ => ?_
      exact .here ⟨hupc, hus.trans hts⟩

end

end Program

/-- A compiled program halts with any variables. -/
theorem compile_halts (root : Node) (vars : Vars) :
    (compile root).Halts ((compile root).start vars) := by
  have hp := (compile root).placed_toList
  rw [compile_code] at hp
  rcases Program.placed_append hp with ⟨hroot, hlast⟩
  refine (Program.layout_leads _ root 0 .empty hroot _ rfl).halts fun t ⟨htpc, _⟩ => ?_
  -- Behind the code of the tree stands the stop, which leads to no state.
  have hstep := Program.step_eq htpc (Program.placed_cons hlast).1
  refine Acc.intro _ fun u hu => ?_
  rw [Program.Follows, hstep] at hu
  exact Transition.noConfusion hu

/-- The states from which a program halts, each above the one a step leads to. -/
instance Program.haltingOrder (p : Program) : WellFoundedRelation { s // p.Halts s } where
  rel t s := p.Follows t.1 s.1
  wf := by
    refine ⟨fun ⟨s, h⟩ => ?_⟩
    induction h with
    | intro s _ ih => exact Acc.intro _ fun t ht => ih t.1 ht

/-- The outcome of a run from a state from which the program halts. -/
def Program.runToEnd (p : Program) (s : State) (h : p.Halts s) : Outcome :=
  match hstep : p.step s with
  | .next t => p.runToEnd t (h.inv hstep)
  | .halt o => o
termination_by (⟨s, h⟩ : { s // p.Halts s })
decreasing_by exact hstep

/-- The outcome of a tree's program with variables. -/
def Node.run (root : Node) (vars : Vars) : Outcome :=
  (compile root).runToEnd _ (compile_halts root vars)

end Stencil
