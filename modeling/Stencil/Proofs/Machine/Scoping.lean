import Stencil.Proofs.Machine.Scopes
import Stencil.Proofs.Machine.Steps

/-!
# Scopes Follow the Nesting of Loops

Whatever tree a program was compiled from, its run ends, and all the way the loops that
are running are those that the next instruction stands in.

In a tree that is put together badly nothing can be said about the stack: the code of a
loop's body may leave values behind or take values that it did not push. The scopes do
not depend on it. An address is inside certain loops by its place in the tree, from the
first instruction of the body on up to the check, and `Node.loopsAt` names them. What
each instruction has to do for the scopes to follow is a condition on the addresses it
leads to, `Instruction.FitsLoops`, and it holds all along compiled code. Since the check
of a loop is inside the loop, a run that comes to it has a scope, and since jumps stay
within the code, a run never leaves it.

## Main definitions

* `Part.loop?`, `Node.loopsAt`: The loops that an address is inside of.
* `Scopes.loopNames`: The names that the running loops bind.
* `Instruction.FitsLoops`: What an instruction does with scopes fits the loops.

## Theorems

* `loopsAt_before`, `loopsAt_behind`: A node's loops are within its code.
* `layout_fitsLoops`: The code of a node fits the loops it stands in.
* `step_loopNames`: Where instructions fit, a step keeps the scopes those of the address.
* `reaches_loopNames`: The scopes of a compiled program are those of the address.
* `reaches_pc_le`: A run of a compiled program does not leave its code.
* `compile_ends_scoped`: A compiled program ends at the stop or with a fault, and on the
  way its scopes follow the nesting of loops.
-/

namespace Stencil

open Program

/-- The name of a loop whose body or check stands at the address. -/
def Part.loop? (pc : Nat) (p : Part) : Option String :=
  match p.node with
  | .forEach name iterable _ =>
    if p.start + iterable.codeSize < pc ∧ pc < p.stop then some name else none
  | _ => none

/-- The names of the loops among some parts whose body or check stands at the address. -/
def loopsAmong (parts : List Part) (pc : Nat) : List String :=
  parts.filterMap (·.loop? pc)

/-- The names of the loops of a tree that an address of its program is inside of, the
    outermost first. -/
def Node.loopsAt (root : Node) (pc : Nat) : List String :=
  loopsAmong (root.parts 0) pc

/-- The names that the running loops bind, the outermost first. A key that is not of the
    table has none. -/
def Scopes.loopNames (scopes : Scopes) (table : Names) : List (Option String) :=
  scopes.loops.reverse.map fun scope => table.name? scope.key

/-- The addresses of a loop's body and its check come behind that of its beginning. -/
theorem loop?_of_inside {name : String} {iterable body : Node} {base pc : Nat}
    (h : base + iterable.codeSize < pc ∧ pc ≤ base + iterable.codeSize + 1 + body.codeSize) :
    Part.loop? pc ⟨.forEach name iterable body, base⟩ = some name := by
  refine if_pos ⟨h.1, ?_⟩
  simp only [Part.stop, Node.codeSize]
  omega

theorem loop?_of_not_inside {name : String} {iterable body : Node} {base pc : Nat}
    (h : ¬ (base + iterable.codeSize < pc ∧ pc ≤ base + iterable.codeSize + 1 + body.codeSize)) :
    Part.loop? pc ⟨.forEach name iterable body, base⟩ = none := by
  refine if_neg fun hinside => h ⟨hinside.1, ?_⟩
  simp only [Part.stop, Node.codeSize] at hinside
  omega

theorem loopsAmong_append (as bs : List Part) (pc : Nat) :
    loopsAmong (as ++ bs) pc = loopsAmong as pc ++ loopsAmong bs pc :=
  List.filterMap_append

/-- A part that is no loop adds none. -/
theorem loopsAmong_cons_of_none {p : Part} {ps : List Part} {pc : Nat} (h : p.loop? pc = none) :
    loopsAmong (p :: ps) pc = loopsAmong ps pc :=
  List.filterMap_cons_none h

theorem loopsAmong_cons_of_some {p : Part} {ps : List Part} {pc : Nat} {name : String}
    (h : p.loop? pc = some name) : loopsAmong (p :: ps) pc = name :: loopsAmong ps pc :=
  List.filterMap_cons_some h

/-- No address up to the first one of some code is inside a loop of it, nor is any behind
    it. -/
theorem loopsAmong_eq_nil {parts : List Part} {lo hi pc : Nat}
    (hparts : ∀ p ∈ parts, p.Within lo hi) (hpc : pc ≤ lo ∨ hi ≤ pc) :
    loopsAmong parts pc = [] := by
  refine List.filterMap_eq_nil_iff.mpr fun p hp => ?_
  have hwithin := hparts p hp
  unfold Part.loop?
  split
  · -- The body starts behind the iterable, and the check is the last instruction.
    refine if_neg fun hinside => ?_
    have := hwithin.1
    have := hwithin.2
    omega
  · rfl

section

variable {base pc : Nat}

theorem loopsAt_before (n : Node) (h : pc ≤ base) : loopsAmong (n.parts base) pc = [] :=
  loopsAmong_eq_nil (mem_parts_bounds n base) (.inl h)

theorem loopsAt_behind (n : Node) (h : base + n.codeSize ≤ pc) :
    loopsAmong (n.parts base) pc = [] :=
  loopsAmong_eq_nil (mem_parts_bounds n base) (.inr h)

theorem loopsReversed_behind (ns : List Node) (h : base + Node.codeSizeAll ns ≤ pc) :
    loopsAmong (Node.partsReversed ns base) pc = [] :=
  loopsAmong_eq_nil (mem_partsReversed_bounds ns base) (.inr h)

end

/-- What an instruction at an address does with the scopes fits the loops that the
    addresses are inside of. -/
def Instruction.FitsLoops (table : Names) (loops : Nat → List String) (k : Nat) :
    Instruction → Prop
  | .stop => loops k = []
  | .jumpIfFalse target => loops (k + 1) = loops k ∧ loops target = loops k
  | .beginFor key target =>
    (∃ name, table.name? key = some name ∧ loops (k + 1) = loops k ++ [name]) ∧
      loops target = loops k
  | .checkFor target => loops target = loops k ∧ ∃ name, loops k = loops (k + 1) ++ [name]
  | _ => loops (k + 1) = loops k

section

variable {table : Names} {loops : Nat → List String}

/-- The loops at the addresses from `lo` to `hi` are those around and those among the
    parts. -/
def LoopsWithin (loops : Nat → List String) (around : List String) (parts : List Part)
    (lo hi : Nat) : Prop :=
  ∀ k, lo ≤ k → k ≤ hi → loops k = around ++ loopsAmong parts k

namespace LoopsWithin

variable {around : List String} {p : Part} {parts as bs : List Part} {lo hi lo' hi' : Nat}

/-- Where no loop of the parts reaches, the loops are those around. -/
theorem eq_around (h : LoopsWithin loops around parts lo hi) {k : Nat} (hlo : lo ≤ k) (hhi : k ≤ hi)
    (hparts : loopsAmong parts k = []) : loops k = around := by
  rw [h k hlo hhi, hparts, List.append_nil]

/-- A part that is no loop around the addresses can be left out. -/
theorem drop (h : LoopsWithin loops around (p :: parts) lo hi) (hlo : lo ≤ lo') (hhi : hi' ≤ hi)
    (hnone : ∀ k, lo' ≤ k → k ≤ hi' → p.loop? k = none) :
    LoopsWithin loops around parts lo' hi' := by
  intro k hk hk'
  rw [h k (Nat.le_trans hlo hk) (Nat.le_trans hk' hhi), loopsAmong_cons_of_none (hnone k hk hk')]

/-- A loop around the addresses is one of those around the other parts. -/
theorem enter {name : String} (h : LoopsWithin loops around (p :: parts) lo hi) (hlo : lo ≤ lo')
    (hhi : hi' ≤ hi) (hsome : ∀ k, lo' ≤ k → k ≤ hi' → p.loop? k = some name) :
    LoopsWithin loops (around ++ [name]) parts lo' hi' := by
  intro k hk hk'
  rw [h k (Nat.le_trans hlo hk) (Nat.le_trans hk' hhi), loopsAmong_cons_of_some (hsome k hk hk'),
    List.append_assoc, List.singleton_append]

/-- Loops of the parts behind do not reach in front of those. -/
theorem left {start stop : Nat} (h : LoopsWithin loops around (as ++ bs) lo hi)
    (hbs : ∀ p ∈ bs, p.Within start stop) (hstart : hi' ≤ start) (hhi : hi' ≤ hi) :
    LoopsWithin loops around as lo hi' := by
  intro k hk hk'
  have hnone := loopsAmong_eq_nil hbs (.inl (Nat.le_trans hk' hstart))
  rw [h k hk (Nat.le_trans hk' hhi), loopsAmong_append, hnone, List.append_nil]

/-- Loops of the parts in front do not reach behind those. -/
theorem right {start stop : Nat} (h : LoopsWithin loops around (as ++ bs) lo hi)
    (has : ∀ p ∈ as, p.Within start stop) (hstop : stop ≤ lo') (hlo : lo ≤ lo') (hhi : hi' ≤ hi) :
    LoopsWithin loops around bs lo' hi' := by
  intro k hk hk'
  have hnone := loopsAmong_eq_nil has (.inr (Nat.le_trans hstop hk))
  rw [h k (Nat.le_trans hlo hk) (Nat.le_trans hk' hhi), loopsAmong_append, hnone, List.nil_append]

/-- At both ends of a node's code the loops are those around it. -/
theorem ends {n : Node} {base : Nat}
    (h : LoopsWithin loops around (n.parts base) base (base + n.codeSize)) :
    loops base = around ∧ loops (base + n.codeSize) = around := by
  have hle : base ≤ base + n.codeSize := Nat.le_add_right _ _
  exact ⟨h.eq_around (Nat.le_refl _) hle (loopsAt_before n (Nat.le_refl _)),
    h.eq_around hle (Nat.le_refl _) (loopsAt_behind n (Nat.le_refl _))⟩

section

variable {condition iterable body : Node} {name : String} {base : Nat}

/-- A conditional is no loop: those around it are those around both its parts. -/
theorem ifThen (h : LoopsWithin loops around ((Node.ifThen condition body).parts base) base
      (base + (Node.ifThen condition body).codeSize)) :
    LoopsWithin loops around (condition.parts base) base (base + condition.codeSize) ∧
      LoopsWithin loops around (body.parts (base + condition.codeSize + 1))
        (base + condition.codeSize + 1) (base + condition.codeSize + 1 + body.codeSize) := by
  simp only [Node.parts, Node.codeSize, ← Nat.add_assoc] at h
  have hboth := h.drop (Nat.le_refl _) (Nat.le_refl _) fun _ _ _ => rfl
  exact ⟨hboth.left (mem_parts_bounds body _) (Nat.le_succ _) (by omega),
    hboth.right (mem_parts_bounds condition _) (Nat.le_succ _) (by omega) (Nat.le_refl _)⟩

/-- A loop is around its body, and neither around its iterable nor around what is behind
    its check. -/
theorem forEach (h : LoopsWithin loops around ((Node.forEach name iterable body).parts base) base
      (base + (Node.forEach name iterable body).codeSize)) :
    LoopsWithin loops around (iterable.parts base) base (base + iterable.codeSize) ∧
      LoopsWithin loops (around ++ [name]) (body.parts (base + iterable.codeSize + 1))
        (base + iterable.codeSize + 1) (base + iterable.codeSize + 1 + body.codeSize) ∧
      loops (base + iterable.codeSize + 1 + body.codeSize + 1) = around := by
  simp only [Node.parts, Node.codeSize, ← Nat.add_assoc] at h
  have hsource : LoopsWithin loops around
      (iterable.parts base ++ body.parts (base + iterable.codeSize + 1)) base
      (base + iterable.codeSize) :=
    h.drop (Nat.le_refl _) (by omega) fun k _ hk => loop?_of_not_inside fun hin => by omega
  have hinner : LoopsWithin loops (around ++ [name])
      (iterable.parts base ++ body.parts (base + iterable.codeSize + 1))
      (base + iterable.codeSize + 1) (base + iterable.codeSize + 1 + body.codeSize) :=
    h.enter (by omega) (by omega) fun k hlo hhi => loop?_of_inside ⟨by omega, by omega⟩
  have hbehind : LoopsWithin loops around
      (iterable.parts base ++ body.parts (base + iterable.codeSize + 1))
      (base + iterable.codeSize + 1 + body.codeSize + 1)
      (base + iterable.codeSize + 1 + body.codeSize + 1) :=
    h.drop (by omega) (Nat.le_refl _) fun k hk _ => loop?_of_not_inside fun hin => by omega
  refine ⟨hsource.left (mem_parts_bounds body _) (Nat.le_succ _) (Nat.le_refl _),
    hinner.right (mem_parts_bounds iterable _) (Nat.le_succ _) (Nat.le_refl _) (Nat.le_refl _),
    hbehind.eq_around (Nat.le_refl _) (Nat.le_refl _) ?_⟩
  rw [loopsAmong_append, loopsAt_behind iterable (by omega), loopsAt_behind body (by omega)]
  rfl

end

end LoopsWithin

/-- Instructions of a part that changes no scopes, behind all loops in it, fit. -/
theorem fitsLoops_plain {around : List String} {parts : List Part} {i : Instruction} {lo k : Nat}
    (hloops : LoopsWithin loops around parts lo (k + 1)) (hlo : lo ≤ k)
    (hparts : loopsAmong parts k = [] ∧ loopsAmong parts (k + 1) = [])
    (hfit : loops (k + 1) = loops k → i.FitsLoops table loops k) :
    Along (Instruction.FitsLoops table loops) k [i] := by
  refine along_singleton.mpr (hfit ?_)
  have hhere := hloops.eq_around hlo (Nat.le_succ _) hparts.1
  have hnext := hloops.eq_around (Nat.le_trans hlo (Nat.le_succ _)) (Nat.le_refl _) hparts.2
  exact hnext.trans hhere.symm

/-- A single instruction that changes no scopes fits the loops around it. -/
theorem fitsLoops_single {around : List String} {p : Part} {i : Instruction} {base : Nat}
    (hloops : LoopsWithin loops around [p] base (base + 1)) (hnone : ∀ k, p.loop? k = none)
    (hfit : loops (base + 1) = loops base → i.FitsLoops table loops base) :
    Along (Instruction.FitsLoops table loops) base [i] :=
  fitsLoops_plain (hloops.drop (Nat.le_refl _) (Nat.le_refl _) fun k _ _ => hnone k)
    (Nat.le_refl _) ⟨rfl, rfl⟩ hfit

mutual

/-- The code of a node fits the loops around it and in it. -/
theorem layout_fitsLoops : (n : Node) → ∀ (base : Nat) (names : Names) (around : List String),
    (mention n names).toList <+: table.toList →
    LoopsWithin loops around (n.parts base) base (base + n.codeSize) →
    Along (Instruction.FitsLoops table loops) base (layout n base names)
  | .sequence statements, base, names, around, hn, hloops =>
      layoutAll_fitsLoops statements base names around hn hloops
  | .text _, base, names, around, hn, hloops => fitsLoops_single hloops (fun _ => rfl) id
  | .print e, base, names, around, hn, hloops => by
      simp only [Node.parts, Node.codeSize, ← Nat.add_assoc] at hloops
      have he : LoopsWithin loops around (e.parts base) base (base + e.codeSize + 1) :=
        hloops.drop (Nat.le_refl _) (Nat.le_refl _) fun _ _ _ => rfl
      refine along_append.mpr ⟨layout_fitsLoops e base names around hn
        fun k hlo hhi => he k hlo (by omega), ?_⟩
      rw [layout_length]
      exact fitsLoops_plain he (by omega)
        ⟨loopsAt_behind e (Nat.le_refl _), loopsAt_behind e (Nat.le_succ _)⟩ id
  | .integer _, base, names, around, hn, hloops => fitsLoops_single hloops (fun _ => rfl) id
  | .nil, base, names, around, hn, hloops => fitsLoops_single hloops (fun _ => rfl) id
  | .lookup _, base, names, around, hn, hloops => fitsLoops_single hloops (fun _ => rfl) id
  | .array elements, base, names, around, hn, hloops => by
      simp only [Node.parts, Node.codeSize, ← Nat.add_assoc] at hloops
      have hitems : LoopsWithin loops around (Node.partsReversed elements base) base
          (base + Node.codeSizeAll elements + 1) :=
        hloops.drop (Nat.le_refl _) (Nat.le_refl _) fun _ _ _ => rfl
      refine along_append.mpr ⟨layoutReversed_fitsLoops elements base names around hn
        fun k hlo hhi => hitems k hlo (by omega), ?_⟩
      rw [layoutReversed_length]
      exact fitsLoops_plain hitems (by omega)
        ⟨loopsReversed_behind elements (Nat.le_refl _),
          loopsReversed_behind elements (Nat.le_succ _)⟩ id
  | .binary op lhs rhs, base, names, around, hn, hloops => by
      simp only [Node.parts, Node.codeSize, ← Nat.add_assoc] at hloops
      simp only [mention] at hn
      -- The right operand's code comes first.
      have hboth := hloops.drop (Nat.le_refl _) (Nat.le_refl _) fun _ _ _ => rfl
      have hright : LoopsWithin loops around (rhs.parts base) base (base + rhs.codeSize) :=
        hboth.left (mem_parts_bounds lhs _) (Nat.le_refl _) (by omega)
      have hleft : LoopsWithin loops around (lhs.parts (base + rhs.codeSize))
          (base + rhs.codeSize) (base + rhs.codeSize + lhs.codeSize + 1) :=
        hboth.right (mem_parts_bounds rhs _) (Nat.le_refl _) (by omega) (Nat.le_refl _)
      refine along_append.mpr
        ⟨layout_fitsLoops rhs base names around ((prefix_mention lhs _).trans hn) hright, ?_⟩
      rw [layout_length]
      refine along_append.mpr ⟨layout_fitsLoops lhs _ _ around hn
        fun k hlo hhi => hleft k hlo (by omega), ?_⟩
      rw [layout_length]
      exact fitsLoops_plain hleft (by omega)
        ⟨loopsAt_behind lhs (Nat.le_refl _), loopsAt_behind lhs (Nat.le_succ _)⟩ id
  | .ifThen condition body, base, names, around, hn, hloops => by
      simp only [mention] at hn
      rcases hloops.ifThen with ⟨htest, hinner⟩
      -- In front of the body and behind it only the loops around are left.
      have hjump : loops (base + condition.codeSize) = around := htest.ends.2
      rcases hinner.ends with ⟨hbody, hend⟩
      simp only [layout, layout_length]
      refine along_append.mpr ⟨layout_fitsLoops condition base names around
        ((prefix_mention body _).trans hn) htest, ?_⟩
      rw [layout_length]
      refine along_cons.mpr ⟨⟨?_, ?_⟩, layout_fitsLoops body _ _ around hn hinner⟩
      · rw [hbody, hjump]
      · rw [hend, hjump]
  | .forEach name iterable body, base, names, around, hn, hloops => by
      simp only [mention] at hn
      rcases hloops.forEach with ⟨hsource, hinner, hend⟩
      have hbegin : loops (base + iterable.codeSize) = around := hsource.ends.2
      rcases hinner.ends with ⟨hbody, hcheck⟩
      have hloopNames := (prefix_mention body _).trans hn
      simp only [layout, layout_length]
      refine along_append.mpr ⟨layout_fitsLoops iterable base names around
        ((prefix_intern _ name).trans hloopNames) hsource, ?_⟩
      rw [layout_length]
      refine along_cons.mpr ⟨⟨⟨name, name?_keyOf hloopNames, ?_⟩, ?_⟩, along_append.mpr
        ⟨layout_fitsLoops body _ _ (around ++ [name]) hn hinner, along_singleton.mpr ?_⟩⟩
      · rw [hbody, hbegin]
      · rw [hend, hbegin]
      · -- The check leads back into the loop or leaves it.
        rw [layout_length]
        exact ⟨hbody.trans hcheck.symm, name, by rw [hcheck, hend]⟩

theorem layoutAll_fitsLoops : (ns : List Node) → ∀ (base : Nat) (names : Names)
    (around : List String), (mentionAll ns names).toList <+: table.toList →
    LoopsWithin loops around (Node.partsAll ns base) base (base + Node.codeSizeAll ns) →
    Along (Instruction.FitsLoops table loops) base (layoutAll ns base names)
  | [], _, _, _, _, _ => along_nil
  | n :: ns, base, names, around, hn, hloops => by
      simp only [Node.partsAll, Node.codeSizeAll, ← Nat.add_assoc] at hloops
      simp only [mentionAll] at hn
      have hfirst : LoopsWithin loops around (n.parts base) base (base + n.codeSize) :=
        hloops.left (mem_partsAll_bounds ns _) (Nat.le_refl _) (by omega)
      have hlater : LoopsWithin loops around (Node.partsAll ns (base + n.codeSize))
          (base + n.codeSize) (base + n.codeSize + Node.codeSizeAll ns) :=
        hloops.right (mem_parts_bounds n _) (Nat.le_refl _) (by omega) (Nat.le_refl _)
      refine along_append.mpr
        ⟨layout_fitsLoops n base names around ((prefix_mentionAll ns _).trans hn) hfirst, ?_⟩
      rw [layout_length]
      exact layoutAll_fitsLoops ns _ _ around hn hlater

theorem layoutReversed_fitsLoops : (ns : List Node) → ∀ (base : Nat) (names : Names)
    (around : List String), (mentionReversed ns names).toList <+: table.toList →
    LoopsWithin loops around (Node.partsReversed ns base) base (base + Node.codeSizeAll ns) →
    Along (Instruction.FitsLoops table loops) base (layoutReversed ns base names)
  | [], _, _, _, _, _ => along_nil
  | n :: ns, base, names, around, hn, hloops => by
      simp only [Node.partsReversed, Node.codeSizeAll, Nat.add_comm n.codeSize,
        ← Nat.add_assoc] at hloops
      simp only [mentionReversed] at hn
      have hlater : LoopsWithin loops around (Node.partsReversed ns base) base
          (base + Node.codeSizeAll ns) :=
        hloops.left (mem_parts_bounds n _) (Nat.le_refl _) (by omega)
      have hfirst : LoopsWithin loops around (n.parts (base + Node.codeSizeAll ns))
          (base + Node.codeSizeAll ns) (base + Node.codeSizeAll ns + n.codeSize) :=
        hloops.right (mem_partsReversed_bounds ns _) (Nat.le_refl _) (by omega) (Nat.le_refl _)
      refine along_append.mpr
        ⟨layoutReversed_fitsLoops ns base names around ((prefix_mention n _).trans hn) hlater, ?_⟩
      rw [layoutReversed_length]
      exact layout_fitsLoops n _ _ around hn hfirst

end

end

/-- The code of a program fits the loops of the tree that it was compiled from. -/
theorem compile_fitsLoops (root : Node) {k : Nat} {i : Instruction}
    (h : (compile root).code[k]? = some i) :
    i.FitsLoops (compile root).names root.loopsAt k := by
  have hcode : Along (Instruction.FitsLoops (compile root).names root.loopsAt) 0
      (layout root 0 .empty ++ [.stop]) := by
    refine along_append.mpr ⟨layout_fitsLoops root 0 .empty [] ?_ fun k _ _ => rfl, ?_⟩
    · simp only [compile_names]
      exact List.prefix_rfl
    · -- The stop is behind all code of the tree.
      rw [layout_length]
      exact along_singleton.mpr (loopsAt_behind root (Nat.le_refl _))
  rw [← Array.getElem?_toList, compile_code] at h
  have hfit := hcode k i h
  rwa [Nat.zero_add] at hfit

theorem loopNames_push (scopes : Scopes) (scope : Scope) (table : Names) :
    (scopes.push scope).loopNames table = scopes.loopNames table ++ [table.name? scope.key] := by
  rw [Scopes.loopNames, Scopes.push, List.reverse_cons, List.map_append, ← Scopes.loopNames]
  rfl

/-- With the innermost loop's name apart. -/
theorem loopNames_of_loops {scopes : Scopes} {scope : Scope} {outer : List Scope} {table : Names}
    (h : scopes.loops = scope :: outer) :
    scopes.loopNames table = scopes.pop.loopNames table ++ [table.name? scope.key] := by
  rw [Scopes.loopNames, Scopes.loopNames, Scopes.pop, h, List.reverse_cons, List.map_append,
    List.tail_cons]
  rfl

section

variable {p : Program} {loops : Nat → List String} {s t : State}

/-- Where instructions fit, a step keeps the scopes those of the address. -/
theorem step_loopNames
    (hfit : ∀ k, ∀ i : Instruction, p.code[k]? = some i → i.FitsLoops p.names loops k)
    (hs : s.scopes.loopNames p.names = (loops s.pc).map some) (hstep : p.step s = .next t) :
    t.scopes.loopNames p.names = (loops t.pc).map some := by
  rcases step_next hstep with ⟨i, hcode, hi⟩
  have hfits := hfit _ i hcode
  cases hi with
  | pass _ _ => exact hs.trans (congrArg _ hfits.1.symm)
  | jump _ _ => exact hs.trans (congrArg _ hfits.2.symm)
  | enter _ =>
      rcases hfits.1 with ⟨name, hname, hloops⟩
      simp only [State.withStack, loopNames_push, hs, hname, hloops, List.map_append,
        List.map_singleton]
  | skip _ => exact hs.trans (congrArg _ hfits.2.symm)
  | again hloops hnext =>
      -- The scope in place of the innermost one binds the same name.
      refine Eq.trans ?_ (hs.trans (congrArg _ hfits.1.symm))
      rw [loopNames_of_loops hloops, ← (Scope.advance?_eq_some hnext).1]
      exact loopNames_push s.scopes.pop _ p.names
  | leave hloops _ =>
      rcases hfits.2 with ⟨name, hname⟩
      rw [loopNames_of_loops hloops, hname, List.map_append, List.map_singleton] at hs
      exact (List.append_inj' hs rfl).1
  | _ => exact hs.trans (congrArg _ hfits.symm)

end

section

variable {root : Node} {vars : Vars} {s : State}

/-- The scopes of a compiled program are those of the loops that the address is in. -/
theorem reaches_loopNames (h : (compile root).Reaches ((compile root).start vars) s) :
    s.scopes.loopNames (compile root).names = (root.loopsAt s.pc).map some := by
  refine h.invariant
    (fun s => s.scopes.loopNames (compile root).names = (root.loopsAt s.pc).map some)
    (fun _ _ => step_loopNames fun _ _ => compile_fitsLoops root) ?_
  -- At the start no loop is running, and none is around the first instruction.
  rw [Node.loopsAt, show ((compile root).start vars).pc = 0 from rfl,
    loopsAt_before root (Nat.le_refl _)]
  rfl

/-- A run of a compiled program does not leave its code. -/
theorem reaches_pc_le (h : (compile root).Reaches ((compile root).start vars) s) :
    s.pc ≤ root.codeSize := by
  refine h.invariant (fun s => s.pc ≤ root.codeSize) (fun a b ha hstep => ?_) (Nat.zero_le _)
  rcases step_next hstep with ⟨i, hcode, hi⟩
  rcases compile_code_cases root hcode with ⟨_, rfl⟩ | ⟨hlt, hstays⟩
  · exact nomatch hi
  · rcases hi.pc with hnext | htarget
    · rw [hnext]
      exact hlt
    · exact (hstays.2 _ htarget).2

/-- There is an instruction wherever a run of a compiled program gets to. -/
theorem reaches_code (h : (compile root).Reaches ((compile root).start vars) s) :
    (compile root).code[s.pc]? ≠ none := by
  have hle := reaches_pc_le h
  have hsize := compile_size root
  rw [Program.size] at hsize
  rw [ne_eq, Array.getElem?_eq_none_iff]
  omega

/-- Where a run of a compiled program ends, it stands at the last instruction outside of
    all loops, or at one that fails and is neither missing nor a check without a loop. -/
theorem reaches_halt_cases (h : (compile root).Reaches ((compile root).start vars) s) {o : Outcome}
    (hstep : (compile root).step s = .halt o) :
    (o = .ok s.output ∧ s.pc = root.codeSize ∧ (compile root).code[s.pc]? = some .stop ∧
        s.scopes.loops = []) ∨
      ∃ i kind, (compile root).code[s.pc]? = some i ∧ s.Fails i kind ∧ kind ≠ .noLoop ∧
        o = .error ⟨s.pc, kind⟩ := by
  have hscopes := reaches_loopNames h
  rcases step_halt hstep with ⟨hnone, _⟩ | ⟨hcode, ho⟩ | ⟨i, kind, hcode, hfails, ho⟩
  · exact absurd hnone (reaches_code h)
  · left
    have hempty : root.loopsAt s.pc = [] := compile_fitsLoops root hcode
    rw [hempty, List.map_nil, Scopes.loopNames, List.map_eq_nil_iff, List.reverse_eq_nil_iff]
      at hscopes
    rcases compile_code_cases root hcode with ⟨hpc, _⟩ | ⟨_, hstays⟩
    · exact ⟨ho, hpc, hcode, hscopes⟩
    · exact absurd rfl hstays.1
  · right
    refine ⟨i, kind, hcode, hfails, ?_, ho⟩
    rintro rfl
    rcases hfails.cases with ⟨hkind, _⟩ | ⟨_, hloops, target, rfl⟩ | hrejects
    · exact nomatch hkind
    · -- A check is inside its loop, so there is a scope.
      rcases (compile_fitsLoops root hcode).2 with ⟨name, hname⟩
      rw [hname, Scopes.loopNames, hloops, List.map_append] at hscopes
      exact absurd hscopes.symm (List.append_ne_nil_of_right_ne_nil _ (List.cons_ne_nil _ _))
    · exact nomatch hrejects

end

/-- A compiled program holds the code of each part of its tree in its place. It ends after
    finitely many steps, at the stop that is its last instruction or with a fault that is
    neither a missing instruction nor a check without a loop. Wherever its run gets to, the
    loops that are running are those whose body or check the address is in, the outermost
    first, and at the stop there are none. -/
theorem compile_ends_scoped (root : Node) (vars : Vars) :
    (compile root).HoldsParts root ∧
      (∃ n s o, (compile root).runFor n ((compile root).start vars) = some o ∧
        (compile root).Reaches ((compile root).start vars) s ∧ (compile root).step s = .halt o ∧
        ((o = .ok s.output ∧ (compile root).code[s.pc]? = some .stop ∧
            s.pc + 1 = (compile root).size ∧ s.scopes.loops = []) ∨
          ∃ kind, o = .error ⟨s.pc, kind⟩ ∧ kind ≠ .endOfProgram ∧ kind ≠ .noLoop)) ∧
      ∀ s, (compile root).Reaches ((compile root).start vars) s →
        s.scopes.loopNames (compile root).names = (root.loopsAt s.pc).map some := by
  refine ⟨compile_holdsParts root, ?_, fun s => reaches_loopNames⟩
  rcases (compile_halts root vars).ends with ⟨o, s, hreach, hhalt⟩
  rcases Ends.runFor ⟨s, hreach, hhalt⟩ with ⟨n, hn⟩
  refine ⟨n, s, o, hn, hreach, hhalt, ?_⟩
  rcases reaches_halt_cases hreach hhalt with
    ⟨ho, hpc, hcode, hloops⟩ | ⟨i, kind, _, hfails, hkind, ho⟩
  · left
    rw [compile_size, hpc]
    rw [hpc] at hcode
    exact ⟨ho, hcode, rfl, hloops⟩
  · refine .inr ⟨kind, ho, ?_, hkind⟩
    rintro rfl
    rcases hfails.cases with ⟨h, _⟩ | ⟨h, _⟩ | h <;> exact nomatch h

end Stencil
