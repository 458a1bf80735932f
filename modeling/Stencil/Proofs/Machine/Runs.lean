import Mathlib.Logic.Relation
import Stencil.Machine.Halting

/-!
# Runs of a Program

Where a run gets to, and how it ends.

`Program.runToEnd` computes the outcome of a run that is known to halt, which is the
wrong form for reasoning about a part of a program: code in the middle of a program
does not end the run, it hands over to the code behind it. `Program.Reaches` says
where a run gets to, and `Program.Ends` how it ends.

A part of a program that carries out a computation does one or the other, depending
on the computation's result. `Program.Yields` puts the two together: with a value the
run comes to the state that belongs to the value, with a fault it ends with the
fault. `Yields.bind` then follows a computation one step at a time.

## Main definitions

* `Program.Reaches`: A run from one state gets to another.
* `Program.Ends`: A run from a state ends with an outcome.
* `Program.Yields`: A run does what the result of a computation says.

## Theorems

* `Ends.of_reaches`: A run ends as it does from any state it gets to.
* `Ends.runFor`: A run that ends does so after some number of steps.
* `Ends.runToEnd_eq`: A run that ends has its outcome.
* `Yields.bind`: A computation in two steps is carried out by two runs.
-/

namespace Stencil

namespace Program

/-- A run from the first state gets to the second. -/
def Reaches (p : Program) : State → State → Prop :=
  Relation.ReflTransGen fun s t => p.step s = .next t

/-- A run from the state ends with the outcome. -/
def Ends (p : Program) (s : State) (o : Outcome) : Prop :=
  ∃ t, p.Reaches s t ∧ p.step t = .halt o

theorem Ends.of_reaches {p : Program} {s t : State} {o : Outcome} (h : p.Reaches s t)
    (ht : p.Ends t o) : p.Ends s o := by
  rcases ht with ⟨u, hreach, hhalt⟩
  exact ⟨u, h.trans hreach, hhalt⟩

/-- A run that ends does so after some number of steps. -/
theorem Ends.runFor {p : Program} {s : State} {o : Outcome} (h : p.Ends s o) :
    ∃ n, p.runFor n s = some o := by
  rcases h with ⟨t, hreach, hhalt⟩
  -- The steps are counted from the end of the run back to its start.
  induction hreach using Relation.ReflTransGen.head_induction_on with
  | refl => exact ⟨1, by simp only [Program.runFor, hhalt]⟩
  | head hstep _ ih =>
      rcases ih with ⟨n, hn⟩
      exact ⟨n + 1, by simp only [Program.runFor, hstep, hn]⟩

theorem runToEnd_of_next {p : Program} {s t : State} (h : p.Halts s) (hstep : p.step s = .next t) :
    p.runToEnd s h = p.runToEnd t (h.inv hstep) := by
  rw [runToEnd]
  split
  · rename_i u hu
    rw [hstep, Transition.next.injEq] at hu
    subst hu
    rfl
  · rename_i o ho
    rw [hstep] at ho
    exact Transition.noConfusion ho

theorem runToEnd_of_halt {p : Program} {s : State} {o : Outcome} (h : p.Halts s)
    (hstep : p.step s = .halt o) : p.runToEnd s h = o := by
  rw [runToEnd]
  split
  · rename_i u hu
    rw [hstep] at hu
    exact Transition.noConfusion hu
  · rename_i o' ho
    rw [hstep, Transition.halt.injEq] at ho
    exact ho.symm

/-- A run that ends has its outcome. -/
theorem Ends.runToEnd_eq {p : Program} {s : State} {o : Outcome} (h : p.Ends s o)
    (hs : p.Halts s) : p.runToEnd s hs = o := by
  rcases h with ⟨t, hreach, hhalt⟩
  -- The proof that the run halts changes from state to state, so it is general.
  induction hreach using Relation.ReflTransGen.head_induction_on with
  | refl => exact runToEnd_of_halt hs hhalt
  | head hstep _ ih => exact (runToEnd_of_next hs hstep).trans (ih _)

/-- A run from the state does what the result of a computation says: it comes to the
    state that belongs to the value, or ends with the fault. -/
def Yields {α : Type} (p : Program) (s : State) (next : α → State) : Except Fault α → Prop
  | .ok a => p.Reaches s (next a)
  | .error f => p.Ends s (.error f)

variable {α β : Type} {p : Program} {s t : State} {next : α → State}

theorem Yields.of_reaches {r : Except Fault α} (h : p.Reaches s t) (ht : p.Yields t next r) :
    p.Yields s next r := by
  cases r with
  | ok a => exact h.trans ht
  | error f => exact Ends.of_reaches h ht

theorem Yields.of_step {r : Except Fault α} (h : p.step s = .next t) (ht : p.Yields t next r) :
    p.Yields s next r :=
  .of_reaches (.single h) ht

/-- The state of a value yields it without a step. -/
theorem Yields.here {a : α} (h : s = next a) : p.Yields s next (.ok a) := by
  rw [h]
  exact .refl

theorem Yields.ok {a : α} (h : p.step s = .next (next a)) : p.Yields s next (.ok a) :=
  .single h

theorem Yields.error {f : Fault} (h : p.step s = .halt (.error f)) : p.Yields s next (.error f) :=
  ⟨s, .refl, h⟩

/-- A computation in two steps is carried out by two runs, the second of which starts
    where the first one gets to. -/
theorem Yields.bind {r : Except Fault α} {f : α → Except Fault β} {next' : β → State}
    (h : p.Yields s next r) (hnext : ∀ a, r = .ok a → p.Yields (next a) next' (f a)) :
    p.Yields s next' (r >>= f) := by
  cases r with
  | ok a => exact .of_reaches h (hnext a rfl)
  | error f =>
      -- The first run ends with the fault, and there is no second.
      exact h

end Program

end Stencil
