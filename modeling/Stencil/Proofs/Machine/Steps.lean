import Stencil.Proofs.Code.Parts
import Stencil.Proofs.Machine.Runs

/-!
# Steps of the Machine

All that one instruction can do.

`State.execute` looks at the stack and the scopes to find out whether an instruction can
be carried out, and how. `State.Step` lists the ways in which it can be, each with the
state that it leads to, and `State.Fails` the ways in which it cannot. What holds of every
step of every program is shown by cases on these, without opening `execute` again.

What every step keeps holds at each state that a run gets to, and a run that halts
gets to a state whose step is its last.

## Main definitions

* `State.Step`: An instruction leads from one state to another.
* `State.Fails`: An instruction fails with a fault.
* `Instruction.pops`, `Instruction.pushes`: How many values an instruction takes and leaves.
* `Instruction.Rejects`: A fault that lies in the values an instruction is given.

## Theorems

* `execute_cases`: An instruction ends the run, fails or makes a step.
* `Step.pc`: A step goes on to the next instruction or jumps to the target.
* `Step.stack_length`: A step changes the height of the stack by what it takes and leaves.
* `Fails.cases`: Why an instruction fails.
* `step_next`, `step_halt`: What a program does at the instruction that a state is at.
* `Reaches.invariant`: What every step keeps holds wherever a run gets to.
* `Halts.ends`: A run that halts ends with some outcome.
-/

namespace Stencil

namespace State

/-- An instruction leads from one state to another. -/
inductive Step (s : State) : Instruction → State → Prop
  | pushInteger {n} : Step s (.pushInteger n) (s.withStack (.integer n :: s.stack))
  | pushNil : Step s .pushNil (s.withStack (.nil :: s.stack))
  | operate {op lhs rhs stack v} : s.stack = lhs :: rhs :: stack → op.apply lhs rhs = .ok v →
    Step s (.operate op) (s.withStack (v :: stack))
  | printText {text} :
    Step s (.printText text) { s with pc := s.pc + 1, output := s.output ++ text }
  | printTop {v stack} : s.stack = v :: stack →
    Step s .printTop { s.withStack stack with output := s.output ++ v.display }
  | lookup {key} : Step s (.lookup key) (s.withStack (s.scopes.lookup key :: s.stack))
  | makeArray {count} : count ≤ s.stack.length →
    Step s (.makeArray count) (s.withStack (.array (s.stack.take count) :: s.stack.drop count))
  /-- The condition holds. -/
  | pass {target v stack} : s.stack = v :: stack → v.isTruthy = true →
    Step s (.jumpIfFalse target) (s.withStack stack)
  | jump {target v stack} : s.stack = v :: stack → v.isTruthy = false →
    Step s (.jumpIfFalse target) { s with pc := target, stack := stack }
  /-- There is a first item, and the loop starts with it. -/
  | enter {key target item items stack} : s.stack = .array (item :: items) :: stack →
    Step s (.beginFor key target)
      { s.withStack stack with scopes := s.scopes.push ⟨key, [], item, items⟩ }
  | skip {key target stack} : s.stack = .array [] :: stack →
    Step s (.beginFor key target) { s with pc := target, stack := stack }
  /-- There is a next item, and the body runs once more. -/
  | again {target scope outer next} : s.scopes.loops = scope :: outer →
    scope.advance? = some next →
    Step s (.checkFor target) { s with pc := target, scopes := s.scopes.replace next }
  | leave {target scope outer} : s.scopes.loops = scope :: outer → scope.advance? = none →
    Step s (.checkFor target) { s with pc := s.pc + 1, scopes := s.scopes.pop }

/-- An instruction fails with a fault. -/
inductive Fails (s : State) : Instruction → FaultKind → Prop
  | fewOperands {op} : s.stack.length < 2 → Fails s (.operate op) .stackUnderflow
  | operate {op lhs rhs stack kind} : s.stack = lhs :: rhs :: stack →
    op.apply lhs rhs = .error kind → Fails s (.operate op) kind
  | printNothing : s.stack = [] → Fails s .printTop .stackUnderflow
  | fewElements {count} : s.stack.length < count → Fails s (.makeArray count) .stackUnderflow
  | noCondition {target} : s.stack = [] → Fails s (.jumpIfFalse target) .stackUnderflow
  | noIterable {key target} : s.stack = [] → Fails s (.beginFor key target) .stackUnderflow
  | notIterable {key target v stack} : s.stack = v :: stack → (∀ items, v ≠ .array items) →
    Fails s (.beginFor key target) (.notIterable v.type)
  | noLoop {target} : s.scopes.loops = [] → Fails s (.checkFor target) .noLoop

theorem beginLoop_cases (s : State) {key target : Nat} {v : Value} {stack : List Value}
    (hstack : s.stack = v :: stack) :
    (∃ kind, s.Fails (.beginFor key target) kind ∧
        s.beginLoop key target v stack = s.fail kind) ∨
      ∃ t, s.Step (.beginFor key target) t ∧ s.beginLoop key target v stack = .next t := by
  cases v with
  | array items =>
      cases items with
      | nil => exact .inr ⟨_, .skip hstack, rfl⟩
      | cons item items => exact .inr ⟨_, .enter hstack, rfl⟩
  | nil => exact .inl ⟨_, .notIterable hstack nofun, rfl⟩
  | integer n => exact .inl ⟨_, .notIterable hstack nofun, rfl⟩
  | text text => exact .inl ⟨_, .notIterable hstack nofun, rfl⟩

theorem checkLoop_cases (s : State) (target : Nat) :
    (∃ kind, s.Fails (.checkFor target) kind ∧ s.checkLoop target = s.fail kind) ∨
      ∃ t, s.Step (.checkFor target) t ∧ s.checkLoop target = .next t := by
  cases hloops : s.scopes.loops with
  | nil =>
      refine .inl ⟨_, .noLoop hloops, ?_⟩
      simp only [checkLoop, Scopes.innermost?, hloops, List.head?_nil]
  | cons scope outer =>
      cases hnext : scope.advance? with
      | none =>
          refine .inr ⟨_, .leave hloops hnext, ?_⟩
          simp only [checkLoop, Scopes.innermost?, hloops, List.head?_cons, hnext]
      | some next =>
          refine .inr ⟨_, .again hloops hnext, ?_⟩
          simp only [checkLoop, Scopes.innermost?, hloops, List.head?_cons, hnext]

/-- An instruction ends the run with what is printed, fails or makes a step. -/
theorem execute_cases (s : State) (i : Instruction) :
    (i = .stop ∧ s.execute i = .halt (.ok s.output)) ∨
      (∃ kind, s.Fails i kind ∧ s.execute i = s.fail kind) ∨
      ∃ t, s.Step i t ∧ s.execute i = .next t := by
  cases i with
  | stop => exact .inl ⟨rfl, rfl⟩
  | pushInteger n => exact .inr (.inr ⟨_, .pushInteger, rfl⟩)
  | pushNil => exact .inr (.inr ⟨_, .pushNil, rfl⟩)
  | printText text => exact .inr (.inr ⟨_, .printText, rfl⟩)
  | lookup key => exact .inr (.inr ⟨_, .lookup, rfl⟩)
  | operate op =>
      right
      simp only [execute]
      split
      · rename_i lhs rhs stack hstack
        split
        · exact .inr ⟨_, .operate hstack ‹_›, rfl⟩
        · exact .inl ⟨_, .operate hstack ‹_›, rfl⟩
      · rename_i hfew
        refine .inl ⟨_, .fewOperands ?_, rfl⟩
        -- A stack of two values or more was matched above.
        rcases hstack : s.stack with _ | ⟨lhs, _ | ⟨rhs, stack⟩⟩
        · exact Nat.zero_lt_two
        · exact Nat.one_lt_two
        · exact absurd hstack (hfew lhs rhs stack)
  | printTop =>
      right
      simp only [execute]
      split
      · exact .inr ⟨_, .printTop ‹_›, rfl⟩
      · exact .inl ⟨_, .printNothing ‹_›, rfl⟩
  | makeArray count =>
      right
      simp only [execute]
      split
      · exact .inr ⟨_, .makeArray ‹_›, rfl⟩
      · exact .inl ⟨_, .fewElements (Nat.lt_of_not_le ‹_›), rfl⟩
  | jumpIfFalse target =>
      right
      simp only [execute]
      split
      · rename_i v stack hstack
        split
        · exact .inr ⟨_, .pass hstack ‹_›, rfl⟩
        · rename_i hfalse
          exact .inr ⟨_, .jump hstack (Bool.eq_false_iff.mpr hfalse), rfl⟩
      · exact .inl ⟨_, .noCondition ‹_›, rfl⟩
  | beginFor key target =>
      right
      simp only [execute]
      split
      · exact beginLoop_cases s ‹_›
      · exact .inl ⟨_, .noIterable ‹_›, rfl⟩
  | checkFor target => exact .inr (checkLoop_cases s target)

end State

namespace Instruction

/-- The number of values that an instruction takes off the stack. -/
def pops : Instruction → Nat
  | .operate _ => 2
  | .printTop => 1
  | .makeArray count => count
  | .jumpIfFalse _ => 1
  | .beginFor _ _ => 1
  | _ => 0

/-- The number of values that an instruction leaves on the stack. -/
def pushes : Instruction → Nat
  | .pushInteger _ => 1
  | .pushNil => 1
  | .operate _ => 1
  | .lookup _ => 1
  | .makeArray _ => 1
  | _ => 0

/-- The instruction fails with this fault because of the values it is given. -/
inductive Rejects : Instruction → FaultKind → Prop
  | operands {op lhs rhs} : Rejects (.operate op) (.unsupportedOperands op lhs rhs)
  | divisionByZero : Rejects (.operate .div) (.arithmetic .divisionByZero)
  | overflow {op} : Rejects (.operate op) (.arithmetic (.overflow op))
  | notIterable {key target type} : Rejects (.beginFor key target) (.notIterable type)

theorem rejects_of_onIntegers {op : Operator} {a b : Int64} {e : ArithmeticError}
    (h : op.onIntegers a b = .error e) : Rejects (.operate op) (.arithmetic e) := by
  have hfitting : ∀ r : Option Int64, fitting op r = .error e → e = .overflow op := by
    intro r hr
    cases r with
    | none => exact (Except.error.inj hr).symm
    | some n => exact nomatch hr
  cases op with
  | add => exact hfitting _ h ▸ .overflow
  | sub => exact hfitting _ h ▸ .overflow
  | mul => exact hfitting _ h ▸ .overflow
  | div =>
      simp only [Operator.onIntegers] at h
      split at h
      · cases h
        exact .divisionByZero
      · exact hfitting _ h ▸ .overflow

theorem rejects_of_apply {op : Operator} {lhs rhs : Value} {kind : FaultKind}
    (h : op.apply lhs rhs = .error kind) : Rejects (.operate op) kind := by
  unfold Operator.apply at h
  split at h
  · split at h
    · exact nomatch h
    · rename_i e he
      cases h
      exact rejects_of_onIntegers he
  · exact nomatch h
  · exact nomatch h
  · cases h
    exact .operands

end Instruction

namespace State

variable {s t : State} {i : Instruction}

/-- A step goes on to the next instruction or jumps to the target. -/
theorem Step.pc (h : s.Step i t) : t.pc = s.pc + 1 ∨ i.target? = some t.pc := by
  cases h with
  | jump _ _ => exact .inr rfl
  | skip _ => exact .inr rfl
  | again _ _ => exact .inr rfl
  | _ => exact .inl rfl

/-- A step takes the instruction's operands off the stack and leaves its result. -/
theorem Step.stack_length (h : s.Step i t) :
    ∃ rest, s.stack.length = rest + i.pops ∧ t.stack.length = rest + i.pushes := by
  cases h with
  | pushInteger | pushNil | lookup => exact ⟨s.stack.length, rfl, rfl⟩
  | printText | again _ _ | leave _ _ => exact ⟨s.stack.length, rfl, rfl⟩
  | @operate _ _ _ stack _ hstack _ =>
      rw [hstack]
      exact ⟨stack.length, rfl, rfl⟩
  | @makeArray count hcount =>
      refine ⟨s.stack.length - count, (Nat.sub_add_cancel hcount).symm, ?_⟩
      rw [withStack, List.length_cons, List.length_drop]
      rfl
  | @printTop _ stack hstack | @skip _ _ stack hstack | @enter _ _ _ _ stack hstack =>
      rw [hstack]
      exact ⟨stack.length, rfl, rfl⟩
  | @pass _ _ stack hstack _ | @jump _ _ stack hstack _ =>
      rw [hstack]
      exact ⟨stack.length, rfl, rfl⟩

/-- An instruction fails for want of operands, for want of a loop, or because of the values
    it is given. -/
theorem Fails.cases {kind : FaultKind} (h : s.Fails i kind) :
    (kind = .stackUnderflow ∧ s.stack.length < i.pops) ∨
      (kind = .noLoop ∧ s.scopes.loops = [] ∧ ∃ target, i = .checkFor target) ∨
      i.Rejects kind := by
  cases h with
  | fewOperands hfew => exact .inl ⟨rfl, hfew⟩
  | fewElements hfew => exact .inl ⟨rfl, hfew⟩
  | printNothing hstack | noCondition hstack | noIterable hstack =>
      refine .inl ⟨rfl, ?_⟩
      rw [hstack]
      exact Nat.zero_lt_one
  | operate _ happly => exact .inr (.inr (Instruction.rejects_of_apply happly))
  | notIterable _ _ => exact .inr (.inr .notIterable)
  | noLoop hloops => exact .inr (.inl ⟨rfl, hloops, _, rfl⟩)

end State

namespace Program

variable {p : Program} {s t : State}

/-- Where a step leads on, it is one of the instruction that the state is at. -/
theorem step_next (h : p.step s = .next t) : ∃ i, p.code[s.pc]? = some i ∧ s.Step i t := by
  unfold step at h
  split at h
  · rename_i i hcode
    refine ⟨i, hcode, ?_⟩
    rcases s.execute_cases i with ⟨_, hstop⟩ | ⟨kind, _, hfail⟩ | ⟨u, hu, hnext⟩
    · rw [hstop] at h
      exact nomatch h
    · rw [hfail] at h
      exact nomatch h
    · rw [hnext, Transition.next.injEq] at h
      exact h ▸ hu
  · exact nomatch h

/-- Where a step ends the run, there is no instruction, or it is the stop, or it fails. -/
theorem step_halt {o : Outcome} (h : p.step s = .halt o) :
    (p.code[s.pc]? = none ∧ o = .error ⟨s.pc, .endOfProgram⟩) ∨
      (p.code[s.pc]? = some .stop ∧ o = .ok s.output) ∨
      ∃ i kind, p.code[s.pc]? = some i ∧ s.Fails i kind ∧ o = .error ⟨s.pc, kind⟩ := by
  unfold step at h
  split at h
  · rename_i i hcode
    right
    rcases s.execute_cases i with ⟨rfl, hstop⟩ | ⟨kind, hkind, hfail⟩ | ⟨u, _, hnext⟩
    · rw [hstop, Transition.halt.injEq] at h
      exact .inl ⟨hcode, h.symm⟩
    · rw [hfail, State.fail, Transition.halt.injEq] at h
      exact .inr ⟨i, kind, hcode, hkind, h.symm⟩
    · rw [hnext] at h
      exact nomatch h
  · rw [State.fail, Transition.halt.injEq] at h
    exact .inl ⟨‹_›, h.symm⟩

/-- What every step keeps holds wherever a run gets to. -/
theorem Reaches.invariant (h : p.Reaches s t) (inv : State → Prop)
    (hstep : ∀ a b, inv a → p.step a = .next b → inv b) (hs : inv s) : inv t := by
  induction h with
  | refl => exact hs
  | tail _ hlast ih => exact hstep _ _ ih hlast

/-- A run that halts ends with some outcome. -/
theorem Halts.ends (h : p.Halts s) : ∃ o, p.Ends s o := by
  induction h with
  | intro s _ ih =>
      cases hstep : p.step s with
      | halt o => exact ⟨o, s, .refl, hstep⟩
      | next t =>
          rcases ih t hstep with ⟨o, ho⟩
          exact ⟨o, .of_reaches (.single hstep) ho⟩

end Program

end Stencil
