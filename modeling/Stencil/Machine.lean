import Stencil.Code
import Stencil.Machine.Fault
import Stencil.Machine.Scopes
import Stencil.Vars

/-!
# The Stack Machine

Runs programs. The machine has a stack of values, the scopes of the running loops,
and the text printed so far. One step carries out one instruction; it leads to one
next state, or it ends the run with the whole text or with a fault.

## Main definitions

* `State`: The machine between two instructions.
* `Transition`: What a step leads to.
* `Program.step`: One step of a program.
* `Program.runFor`: At most a given number of steps.
* `Program.start`: The state in which a program starts.
-/

namespace Stencil

/-- The machine between two instructions: the number of the next one, the values on
    the stack, the top first, the scopes, and the text printed so far. -/
structure State where
  pc : Nat
  stack : List Value
  scopes : Scopes
  output : String

/-- The result of a run: everything printed, or the fault that ended it. -/
abbrev Outcome := Except Fault String

/-- What a step leads to. -/
inductive Transition
  | next (s : State)
  | halt (outcome : Outcome)

namespace State

/-- The state after an instruction that changes the stack alone. -/
def withStack (s : State) (stack : List Value) : State :=
  { s with pc := s.pc + 1, stack := stack }

/-- The instruction fails. -/
def fail (s : State) (kind : FaultKind) : Transition :=
  .halt (.error ⟨s.pc, kind⟩)

/-- The innermost loop goes on with its next item, or ends after its last. -/
def checkLoop (s : State) (target : Nat) : Transition :=
  match s.scopes.innermost? with
  | none => s.fail .noLoop
  | some scope =>
    match scope.advance? with
    | some scope => .next { s with pc := target, scopes := s.scopes.replace scope }
    | none => .next { s with pc := s.pc + 1, scopes := s.scopes.pop }

/-- A loop over a value that was popped: it starts with the first item, or is skipped
    where there is none. -/
def beginLoop (s : State) (key target : Nat) (iterable : Value) (stack : List Value) :
    Transition :=
  match iterable with
  | .array items =>
    match Scope.begin? key items with
    | some scope => .next { s.withStack stack with scopes := s.scopes.push scope }
    | none => .next { s with pc := target, stack := stack }
  | v => s.fail (.notIterable v.type)

/-- Carries out one instruction. -/
def execute (s : State) : Instruction → Transition
  | .stop => .halt (.ok s.output)
  | .pushInteger n => .next (s.withStack (.integer n :: s.stack))
  | .pushNil => .next (s.withStack (.nil :: s.stack))
  | .operate op =>
    match s.stack with
    | lhs :: rhs :: stack =>
      match op.apply lhs rhs with
      | .ok v => .next (s.withStack (v :: stack))
      | .error kind => s.fail kind
    | _ => s.fail .stackUnderflow
  | .printText text => .next { s with pc := s.pc + 1, output := s.output ++ text }
  | .printTop =>
    match s.stack with
    | v :: stack => .next { s.withStack stack with output := s.output ++ v.display }
    | [] => s.fail .stackUnderflow
  | .lookup key => .next (s.withStack (s.scopes.lookup key :: s.stack))
  | .makeArray count =>
    if count ≤ s.stack.length then
      .next (s.withStack (.array (s.stack.take count) :: s.stack.drop count))
    else s.fail .stackUnderflow
  | .jumpIfFalse target =>
    match s.stack with
    | v :: stack =>
      if v.isTruthy then .next (s.withStack stack)
      else .next { s with pc := target, stack := stack }
    | [] => s.fail .stackUnderflow
  | .beginFor key target =>
    match s.stack with
    | v :: stack => s.beginLoop key target v stack
    | [] => s.fail .stackUnderflow
  | .checkFor target => s.checkLoop target

end State

namespace Program

/-- One step: the instruction that the state is at, if there is one. -/
def step (p : Program) (s : State) : Transition :=
  match p.code[s.pc]? with
  | some i => s.execute i
  | none => s.fail .endOfProgram

/-- The outcome of a run of at most `n` steps, `none` if it takes more. -/
def runFor (p : Program) : Nat → State → Option Outcome
  | 0, _ => none
  | n + 1, s =>
    match p.step s with
    | .next s' => runFor p n s'
    | .halt outcome => some outcome

/-- The root scope that variables make for a program. Variables that the program does
    not mention have no key and take no part. -/
def root (p : Program) (vars : Vars) (key : Nat) : Option Value :=
  (p.names.name? key).bind vars.get?

/-- The state in which a run with variables starts. -/
def start (p : Program) (vars : Vars) : State :=
  ⟨0, [], .ofRoot (p.root vars), ""⟩

end Program

end Stencil
