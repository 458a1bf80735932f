import Stencil.Proofs.Grammar.Trees
import Stencil.Proofs.Machine.Scoping

/-!
# The Stack Has One Height at Each Address

In a compiled template the number of values on the stack depends on the address alone.

The code of an expression leaves one value more than it finds and the code of a statement
leaves the stack as it was, so the heights can be written down next to the code without
running it. `Expression.heights` and `Statement.heights` do that, one number for each
instruction, along the same recursion as the layout. That an instruction fits the heights
is a condition on the addresses that it leads to, and where all instructions fit, every
step keeps the stack at the height of its address, whatever way led there.

A stack of that height holds the operands of the next instruction, so no run underflows.
What is left are the faults that lie in the values: operands that do not go together, a
division by zero, a result that does not fit, and a loop over a value that is no array.

## Main definitions

* `Expression.heights`, `Statement.heights`: The height of the stack at each instruction.
* `Template.heightAt`: The height of the stack at an address of a template's program.
* `Node.IsStatement`, `Node.IsExpression`: The two sorts of nodes.
* `Instruction.FitsHeights`: What an instruction takes and leaves fits the heights.
* `Part.FitsHeights`: The heights at the ends of a part are those of its sort.

## Theorems

* `Expression.fitsHeights`, `Statement.fitsHeights`: Code fits its heights.
* `step_height`: Where instructions fit, a step keeps the stack at the height of the
  address.
* `reaches_height`: The stack of a compiled template has the height of the address.
* `compile_stackDiscipline`: The heights of a template's program, and what they rule out.
-/

namespace Stencil

open Program

mutual

/-- The height of the stack at each instruction of an expression, where the code starts
    above `h` values. -/
def Expression.heights : Expression → Nat → List Nat
  | .integer _, h => [h]
  | .nil, h => [h]
  | .lookup _, h => [h]
  | .array elements, h => Expression.heightsReversed elements h ++ [h + elements.length]
  | .binary _ lhs rhs, h => rhs.heights h ++ (lhs.heights (h + 1) ++ [h + 2])

/-- The heights along expressions whose code stands from the last to the first. -/
def Expression.heightsReversed : List Expression → Nat → List Nat
  | [], _ => []
  | e :: es, h => Expression.heightsReversed es h ++ e.heights (h + es.length)

end

mutual

/-- The height of the stack at each instruction of a statement. -/
def Statement.heights : Statement → List Nat
  | .text _ => [0]
  | .print e => e.heights 0 ++ [1]
  | .ifThen condition body => condition.heights 0 ++ 1 :: Statement.heightsAll body
  | .forEach _ iterable body => iterable.heights 0 ++ 1 :: (Statement.heightsAll body ++ [0])

/-- The heights along statements in order. -/
def Statement.heightsAll : List Statement → List Nat
  | [] => []
  | s :: ss => s.heights ++ Statement.heightsAll ss

end

/-- The height of the stack at an address of a template's program. At the stop, and behind
    it, the stack is empty. -/
def Template.heightAt (t : Template) (pc : Nat) : Nat :=
  (Statement.heightsAll t)[pc]?.getD 0

/-- The node is a statement. -/
def Node.IsStatement : Node → Prop
  | .text _ => True
  | .print _ => True
  | .ifThen _ _ => True
  | .forEach _ _ _ => True
  | _ => False

/-- The node is an expression. -/
def Node.IsExpression : Node → Prop
  | .integer _ => True
  | .nil => True
  | .lookup _ => True
  | .array _ => True
  | .binary _ _ _ => True
  | _ => False

mutual

theorem Expression.length_heights : (e : Expression) → ∀ h : Nat,
    (e.heights h).length = e.node.codeSize
  | .integer _, _ => rfl
  | .nil, _ => rfl
  | .lookup _, _ => rfl
  | .array elements, h => by
      simp only [heights, node, Node.codeSize, List.length_append, List.length_singleton,
        Expression.length_heightsReversed elements h]
  | .binary _ lhs rhs, h => by
      simp only [heights, node, Node.codeSize, List.length_append, List.length_singleton,
        rhs.length_heights h, lhs.length_heights (h + 1), Nat.add_assoc]

theorem Expression.length_heightsReversed : (es : List Expression) → ∀ h : Nat,
    (Expression.heightsReversed es h).length = Node.codeSizeAll (Expression.nodes es)
  | [], _ => rfl
  | e :: es, h => by
      simp only [heightsReversed, nodes, Node.codeSizeAll, List.length_append,
        Expression.length_heightsReversed es h, e.length_heights, Nat.add_comm]

end

mutual

theorem Statement.length_heights : (s : Statement) → s.heights.length = s.node.codeSize
  | .text _ => rfl
  | .print e => by
      simp only [heights, node, Node.codeSize, List.length_append, List.length_singleton,
        e.length_heights]
  | .ifThen condition body => by
      simp only [heights, node, Node.codeSize, List.length_append, List.length_cons,
        condition.length_heights, Statement.length_heightsAll body]
      omega
  | .forEach _ iterable body => by
      simp only [heights, node, Node.codeSize, List.length_append, List.length_cons,
        List.length_nil, iterable.length_heights, Statement.length_heightsAll body]
      omega

theorem Statement.length_heightsAll : (ss : List Statement) →
    (Statement.heightsAll ss).length = Node.codeSizeAll (Statement.nodes ss)
  | [] => rfl
  | s :: ss => by
      simp only [heightsAll, nodes, Node.codeSizeAll, List.length_append, s.length_heights,
        Statement.length_heightsAll ss]

end

/-- What an instruction at an address takes and leaves fits the heights of the stack at the
    addresses. -/
def Instruction.FitsHeights (height : Nat → Nat) (k : Nat) (i : Instruction) : Prop :=
  ∃ rest, height k = rest + i.pops ∧ height (k + 1) = rest + i.pushes ∧
    ∀ target ∈ i.target?, height target = rest + i.pushes

/-- A statement starts with an empty stack, and the code of an expression leaves one value
    more. -/
def Part.FitsHeights (height : Nat → Nat) (p : Part) : Prop :=
  (p.node.IsStatement → height p.start = 0) ∧
    (p.node.IsExpression → height p.stop = height p.start + 1)

/-- The heights at the addresses from `base` on are those of the list. -/
def Marked (height : Nat → Nat) (base : Nat) (hs : List Nat) : Prop :=
  Along (fun k h => height k = h) base hs

/-- Some code and its parts fit the heights, and it starts above `h` values. -/
structure FitsHeights (height : Nat → Nat) (base h : Nat) (code : List Instruction)
    (parts : List Part) : Prop where
  start : height base = h
  code : Along (Instruction.FitsHeights height) base code
  parts : ∀ p ∈ parts, p.FitsHeights height

section

variable {height : Nat → Nat} {base h h' : Nat} {i : Instruction} {p : Part}
  {code code' : List Instruction} {parts parts' : List Part}

/-- An instruction that jumps nowhere fits the heights in front of it and behind it. -/
theorem fitsHeights_plain {rest : Nat} (hplain : i.target? = none)
    (hpops : height base = rest + i.pops) (hpushes : height (base + 1) = rest + i.pushes) :
    i.FitsHeights height base :=
  ⟨rest, hpops, hpushes, fun target htarget => by rw [hplain] at htarget; exact nomatch htarget⟩

namespace FitsHeights

theorem nil (hstart : height base = h) : FitsHeights height base h [] [] :=
  ⟨hstart, along_nil, nofun⟩

theorem append (hfront : FitsHeights height base h code parts)
    (hback : FitsHeights height (base + code.length) h' code' parts') :
    FitsHeights height base h (code ++ code') (parts ++ parts') where
  start := hfront.start
  code := along_append.mpr ⟨hfront.code, hback.code⟩
  parts p hp := (List.mem_append.mp hp).elim (hfront.parts p) (hback.parts p)

/-- One more instruction in front. -/
theorem cons (hstart : height base = h) (hi : i.FitsHeights height base)
    (hback : FitsHeights height (base + 1) h' code parts) :
    FitsHeights height base h (i :: code) parts :=
  ⟨hstart, along_cons.mpr ⟨hi, hback.code⟩, hback.parts⟩

/-- The code and the parts are those inside another part. -/
theorem of_inside (hinside : FitsHeights height base h code parts) (hp : p.FitsHeights height) :
    FitsHeights height base h code (p :: parts) where
  start := hinside.start
  code := hinside.code
  parts q hq := (List.mem_cons.mp hq).elim (fun h => h ▸ hp) (hinside.parts q)

/-- An expression leaves one value more than it finds. -/
theorem expression {n : Node} (hinside : FitsHeights height base h code parts)
    (hsort : ¬ n.IsStatement) (hend : height (base + n.codeSize) = h + 1) :
    FitsHeights height base h code (⟨n, base⟩ :: parts) :=
  hinside.of_inside ⟨fun hs => absurd hs hsort, fun _ => hend.trans (by rw [hinside.start])⟩

/-- A statement starts with an empty stack. -/
theorem statement {n : Node} (hinside : FitsHeights height base 0 code parts)
    (hsort : ¬ n.IsExpression) : FitsHeights height base 0 code (⟨n, base⟩ :: parts) :=
  hinside.of_inside ⟨fun _ => hinside.start, fun he => absurd he hsort⟩

/-- A sequence is neither a statement nor an expression. -/
theorem sequence {ns : List Node} (hinside : FitsHeights height base h code parts) :
    FitsHeights height base h code (⟨.sequence ns, base⟩ :: parts) :=
  hinside.of_inside ⟨nofun, nofun⟩

/-- An instruction behind the code, with nothing behind it. -/
theorem concat (hfront : FitsHeights height base h code parts)
    (hi : i.FitsHeights height (base + code.length)) :
    FitsHeights height base h (code ++ [i]) parts :=
  ⟨hfront.start, along_append.mpr ⟨hfront.code, along_singleton.mpr hi⟩, hfront.parts⟩

/-- A single instruction that pushes a value. -/
theorem push {n : Node} (hm : Marked height base [h]) (hend : height (base + n.codeSize) = h + 1)
    (hsize : n.codeSize = 1) (hsort : ¬ n.IsStatement) (hplain : i.target? = none)
    (hpops : i.pops = 0) (hpushes : i.pushes = 1) :
    FitsHeights height base h [i] [⟨n, base⟩] := by
  have hstart := along_singleton.mp hm
  have hnext : height (base + 1) = h + i.pushes := by rw [hpushes, ← hend, hsize]
  have hi : i.FitsHeights height base :=
    fitsHeights_plain hplain (hstart.trans (by rw [hpops, Nat.add_zero])) hnext
  exact .expression ⟨hstart, along_singleton.mpr hi, nofun⟩ hsort hend

end FitsHeights

mutual

/-- The code of an expression fits its heights, if one value more is on the stack behind
    it. -/
theorem Expression.fitsHeights : (e : Expression) → ∀ (base h : Nat) (names : Names),
    Marked height base (e.heights h) → height (base + e.node.codeSize) = h + 1 →
    FitsHeights height base h (layout e.node base names) (e.node.parts base)
  | .integer _, base, h, names, hm, hend => .push hm hend rfl nofun rfl rfl rfl
  | .nil, base, h, names, hm, hend => .push hm hend rfl nofun rfl rfl rfl
  | .lookup _, base, h, names, hm, hend => .push hm hend rfl nofun rfl rfl rfl
  | .array elements, base, h, names, hm, hend => by
      rcases along_append.mp hm with ⟨hitems, hmake⟩
      rw [Expression.length_heightsReversed] at hmake
      have hmake := along_singleton.mp hmake
      have helements := Expression.fitsHeightsReversed elements base h names hitems hmake
      refine (FitsHeights.concat helements ?_).expression nofun hend
      -- The elements are taken from the stack, and the array comes in their place.
      rw [layoutReversed_length]
      refine fitsHeights_plain rfl ?_ hend
      rw [hmake, Instruction.pops, Expression.length_nodes]
  | .binary op lhs rhs, base, h, names, hm, hend => by
      simp only [node, Node.codeSize, ← Nat.add_assoc] at hend
      rcases along_append.mp hm with ⟨hright, hm⟩
      rcases along_append.mp hm with ⟨hleft, hop⟩
      rw [rhs.length_heights] at hleft hop
      rw [lhs.length_heights] at hop
      have hop := along_singleton.mp hop
      -- The left operand is pushed above the right one.
      have hleft := lhs.fitsHeights (base + rhs.node.codeSize) (h + 1) (mention rhs.node names)
        hleft hop
      have hright := rhs.fitsHeights base h names hright hleft.start
      simp only [node, layout, layout_length, Node.parts]
      refine (hright.append (?_ : FitsHeights height _ (h + 1) _ _)).expression nofun ?_
      · rw [layout_length]
        refine hleft.concat ?_
        rw [layout_length]
        exact fitsHeights_plain rfl hop hend
      · simp only [Node.codeSize, ← Nat.add_assoc, hend]

theorem Expression.fitsHeightsReversed : (es : List Expression) → ∀ (base h : Nat) (names : Names),
    Marked height base (Expression.heightsReversed es h) →
    height (base + Node.codeSizeAll (Expression.nodes es)) = h + es.length →
    FitsHeights height base h (layoutReversed (Expression.nodes es) base names)
      (Node.partsReversed (Expression.nodes es) base)
  | [], _, _, _, _, hend => .nil hend
  | e :: es, base, h, names, hm, hend => by
      simp only [nodes, Node.codeSizeAll, Nat.add_comm e.node.codeSize, ← Nat.add_assoc,
        List.length_cons] at hend
      rcases along_append.mp hm with ⟨hlater, hfirst⟩
      rw [Expression.length_heightsReversed] at hfirst
      have hfirst := e.fitsHeights _ _ (mentionReversed (Expression.nodes es) names) hfirst hend
      have hlater := Expression.fitsHeightsReversed es base h names hlater hfirst.start
      simp only [nodes, layoutReversed, layoutReversed_length, Node.partsReversed]
      refine hlater.append (?_ : FitsHeights height _ (h + es.length) _ _)
      rw [layoutReversed_length]
      exact hfirst

end

mutual

/-- The code of a statement fits its heights, if the stack is empty behind it. -/
theorem Statement.fitsHeights : (s : Statement) → ∀ (base : Nat) (names : Names),
    Marked height base s.heights → height (base + s.node.codeSize) = 0 →
    FitsHeights height base 0 (layout s.node base names) (s.node.parts base)
  | .text _, base, names, hm, hend => by
      have hstart := along_singleton.mp hm
      exact .statement
        ⟨hstart, along_singleton.mpr (fitsHeights_plain rfl hstart hend), nofun⟩ nofun
  | .print e, base, names, hm, hend => by
      rcases along_append.mp hm with ⟨he, hprint⟩
      rw [e.length_heights] at hprint
      have hprint := along_singleton.mp hprint
      refine (FitsHeights.concat (e.fitsHeights base 0 names he hprint) ?_).statement nofun
      rw [layout_length]
      exact fitsHeights_plain rfl hprint hend
  | .ifThen condition body, base, names, hm, hend => by
      simp only [node, Node.codeSize, ← Nat.add_assoc] at hend
      rcases along_append.mp hm with ⟨htest, hm⟩
      rw [condition.length_heights] at hm
      rcases along_cons.mp hm with ⟨hjump, hinner⟩
      have htest := condition.fitsHeights base 0 names htest hjump
      have hinner := Statement.fitsHeightsAll body (base + condition.node.codeSize + 1)
        (mention condition.node names) hinner hend
      simp only [node, layout, layout_length, layoutAll_length, Node.parts]
      refine (htest.append (?_ : FitsHeights height _ 1 _ _)).statement nofun
      rw [layout_length]
      -- With the condition taken off, the stack is empty in the body and behind it.
      refine .cons hjump ⟨0, hjump, hinner.start, fun target htarget => ?_⟩
        hinner.sequence
      cases htarget
      exact hend
  | .forEach name iterable body, base, names, hm, hend => by
      simp only [node, Node.codeSize, ← Nat.add_assoc] at hend
      rcases along_append.mp hm with ⟨hsource, hm⟩
      rw [iterable.length_heights] at hm
      rcases along_cons.mp hm with ⟨hbegin, hm⟩
      rcases along_append.mp hm with ⟨hinner, hcheck⟩
      rw [Statement.length_heightsAll] at hcheck
      have hcheck := along_singleton.mp hcheck
      have hsource := iterable.fitsHeights base 0 names hsource hbegin
      have hinner := Statement.fitsHeightsAll body (base + iterable.node.codeSize + 1)
        ((mention iterable.node names).intern name) hinner hcheck
      simp only [node, layout, layout_length, layoutAll_length, Node.parts]
      refine (hsource.append (?_ : FitsHeights height _ 1 _ _)).statement nofun
      rw [layout_length]
      -- The body starts and ends with an empty stack, however often it runs.
      refine .cons hbegin ⟨0, hbegin, hinner.start, fun target htarget => ?_⟩
        (hinner.sequence.concat ⟨0, ?_, ?_, fun target htarget => ?_⟩)
      · cases htarget
        exact hend
      · rw [layoutAll_length]
        exact hcheck
      · rw [layoutAll_length]
        exact hend
      · cases htarget
        exact hinner.start

theorem Statement.fitsHeightsAll : (ss : List Statement) → ∀ (base : Nat) (names : Names),
    Marked height base (Statement.heightsAll ss) →
    height (base + Node.codeSizeAll (Statement.nodes ss)) = 0 →
    FitsHeights height base 0 (layoutAll (Statement.nodes ss) base names)
      (Node.partsAll (Statement.nodes ss) base)
  | [], _, _, _, hend => .nil hend
  | s :: ss, base, names, hm, hend => by
      simp only [nodes, Node.codeSizeAll, ← Nat.add_assoc] at hend
      rcases along_append.mp hm with ⟨hfirst, hlater⟩
      rw [s.length_heights] at hlater
      have hlater := Statement.fitsHeightsAll ss (base + s.node.codeSize)
        (mention s.node names) hlater hend
      have hfirst := s.fitsHeights base names hfirst hlater.start
      simp only [nodes, layoutAll, layout_length, Node.partsAll]
      refine hfirst.append (?_ : FitsHeights height _ 0 _ _)
      rw [layout_length]
      exact hlater

end

end

section

variable (t : Template)

theorem marked_heightAt : Marked t.heightAt 0 (Statement.heightsAll t) := by
  intro i h hi
  rw [Nat.zero_add, Template.heightAt, hi, Option.getD_some]

/-- At the stop the stack is empty. -/
theorem heightAt_stop : t.heightAt t.node.codeSize = 0 := by
  have hlength : (Statement.heightsAll t).length = t.node.codeSize := Statement.length_heightsAll t
  rw [Template.heightAt, ← hlength, List.getElem?_eq_none (Nat.le_refl _), Option.getD_none]

theorem template_fitsHeights : FitsHeights t.heightAt 0 0 (layoutAll (Statement.nodes t) 0 .empty)
    (Node.partsAll (Statement.nodes t) 0) := by
  refine Statement.fitsHeightsAll t 0 .empty (marked_heightAt t) ?_
  rw [Nat.zero_add]
  exact heightAt_stop t

/-- The instructions of a template's program fit its heights. -/
theorem compile_fitsHeights {k : Nat} {i : Instruction}
    (h : (compile t.node).code[k]? = some i) : i.FitsHeights t.heightAt k := by
  rcases compile_code_cases t.node h with ⟨rfl, rfl⟩ | ⟨hk, _⟩
  · -- Behind the stop the heights go on with an empty stack.
    have hlength : (Statement.heightsAll t).length = t.node.codeSize :=
      Statement.length_heightsAll t
    refine fitsHeights_plain rfl (heightAt_stop t) ?_
    rw [Template.heightAt, List.getElem?_eq_none (by omega), Option.getD_none]
    rfl
  · rw [← Array.getElem?_toList, compile_code, List.getElem?_append_left (by rwa [layout_length])]
      at h
    have hfits := (template_fitsHeights t).code k i h
    rwa [Nat.zero_add] at hfits

/-- The heights at the ends of the parts of a template are those of their sorts. -/
theorem parts_fitsHeights : ∀ part ∈ t.node.parts 0, part.FitsHeights t.heightAt :=
  (template_fitsHeights t).sequence.parts

end

/-- Where instructions fit, a step keeps the stack at the height of the address. -/
theorem step_height {p : Program} {height : Nat → Nat} {s t : State}
    (hfit : ∀ k, ∀ i : Instruction, p.code[k]? = some i → i.FitsHeights height k)
    (hs : s.stack.length = height s.pc) (hstep : p.step s = .next t) :
    t.stack.length = height t.pc := by
  rcases step_next hstep with ⟨i, hcode, hi⟩
  rcases hfit _ i hcode with ⟨rest, hhere, hnext, htarget⟩
  rcases hi.stack_length with ⟨rest', hbefore, hafter⟩
  have hrest : rest' = rest := by omega
  rw [hafter, hrest]
  rcases hi.pc with hpc | hpc
  · rw [hpc, hnext]
  · exact (htarget _ hpc).symm

section

variable {t : Template} {vars : Vars} {s : State}

/-- The stack of a template's program has the height of the address. -/
theorem reaches_height (h : (compile t.node).Reaches ((compile t.node).start vars) s) :
    s.stack.length = t.heightAt s.pc := by
  refine h.invariant (fun s => s.stack.length = t.heightAt s.pc)
    (fun _ _ => step_height fun _ _ => compile_fitsHeights t) ?_
  exact (template_fitsHeights t).start.symm

/-- A template's program ends with an empty stack, or because of the values that an
    instruction is given. -/
theorem template_halt_cases (h : (compile t.node).Reaches ((compile t.node).start vars) s)
    {o : Outcome} (hstep : (compile t.node).step s = .halt o) :
    (o = .ok s.output ∧ (compile t.node).code[s.pc]? = some .stop ∧ s.stack = []) ∨
      ∃ i kind, (compile t.node).code[s.pc]? = some i ∧ i.Rejects kind ∧
        o = .error ⟨s.pc, kind⟩ := by
  have hheight := reaches_height h
  rcases reaches_halt_cases h hstep with ⟨ho, hpc, hcode, _⟩ | ⟨i, kind, hcode, hfails, hloop, ho⟩
  · rw [hpc, heightAt_stop] at hheight
    exact .inl ⟨ho, hcode, List.eq_nil_of_length_eq_zero hheight⟩
  · refine .inr ⟨i, kind, hcode, ?_, ho⟩
    rcases hfails.cases with ⟨_, hfew⟩ | ⟨hkind, _⟩ | hrejects
    · -- The stack holds all that the instruction takes.
      rcases compile_fitsHeights t hcode with ⟨rest, hhere, _⟩
      omega
    · exact absurd hkind hloop
    · exact hrejects

end

/-- Whatever is parsed is a template. The program of a template holds the code of each part
    in its place, and the height of its stack is a function of the address. It is zero at the
    start of every statement, and the code of every expression leaves one value more. No run
    underflows, leaves the code or checks a loop that is not there. It ends at the stop with
    an empty stack, or it fails because an operator or the beginning of a loop rejects the
    values it is given. -/
theorem compile_stackDiscipline :
    (∀ ts root, parse ts = .ok root → ∃ t : Template, root = t.node) ∧
      ∀ t : Template, (compile t.node).HoldsParts t.node ∧ ∃ height : Nat → Nat,
        (∀ part ∈ t.node.parts 0, (part.node.IsStatement → height part.start = 0) ∧
          (part.node.IsExpression → height part.stop = height part.start + 1)) ∧
        ∀ vars s, (compile t.node).Reaches ((compile t.node).start vars) s →
          s.stack.length = height s.pc ∧
          ∀ o, (compile t.node).step s = .halt o →
            (o = .ok s.output ∧ (compile t.node).code[s.pc]? = some .stop ∧ s.stack = []) ∨
            ∃ i kind, (compile t.node).code[s.pc]? = some i ∧ o = .error ⟨s.pc, kind⟩ ∧
              i.Rejects kind ∧ kind ≠ .stackUnderflow ∧ kind ≠ .endOfProgram ∧
              kind ≠ .noLoop := by
  refine ⟨fun ts root => template_of_parse,
    fun t => ⟨compile_holdsParts t.node, t.heightAt, parts_fitsHeights t, ?_⟩⟩
  intro vars s hreach
  refine ⟨reaches_height hreach, fun o hstep => ?_⟩
  rcases template_halt_cases hreach hstep with hstop | ⟨i, kind, hcode, hrejects, ho⟩
  · exact .inl hstop
  · have hvalues : kind ≠ .stackUnderflow ∧ kind ≠ .endOfProgram ∧ kind ≠ .noLoop := by
      cases hrejects <;> exact ⟨nofun, nofun, nofun⟩
    exact .inr ⟨i, kind, hcode, ho, hrejects, hvalues⟩

end Stencil
