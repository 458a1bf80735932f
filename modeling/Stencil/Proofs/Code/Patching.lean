import Mathlib.Data.List.Pairwise
import Stencil.Proofs.Code.Parts

/-!
# Open Jumps Are Closed by Their Own Node

What writing code back to front leaves behind.

A jump over code that is still to come is written with no target, and gets its target by
number once that code is there. Meanwhile other nodes have been written, with jumps of
their own. `emit?` is the writing that looks: before a jump is patched it makes sure that
under the number stands the very jump that the node has written, still open, whatever the
open target is taken to be. It never finds anything else and leaves behind what `emit`
does, so no jump is left open, none is closed twice, and nothing but a jump is ever
patched.

The finished program is the layout of its tree and the stop. That it has blocks and loops
only, one inside the other or one behind the other, is then read off the layout.

## Main definitions

* `Draft.patch?`: Points a jump at the end of the draft, if it stands where it should.
* `emit?`: Writes the code of a node and looks before it patches.
* `WellStructured`: What the jumps of a tree's program have to do with each other.

## Theorems

* `emit?_eq`: A jump that is patched is the one that its node has written.
* `prefix_emit`: Writing the code of a node leaves in front what is written.
* `compile_wellStructured`: Programs are written in place and well structured.
-/

namespace Stencil

namespace Draft

/-- Points the jump with this number at the end of the draft, if it is the jump that is
    expected there. -/
def patch? (d : Draft) (number : Nat) (jump : Instruction) : Option Draft :=
  if d.code[number]? = some jump then some (d.patch number) else none

theorem extend_getElem? (d : Draft) (i : Instruction) (code : List Instruction) (names : Names) :
    (d.extend (i :: code) names).code[d.size]? = some i := by
  simp only [extend, size, ← Array.getElem?_toList, Array.toList_appendList]
  rw [List.getElem?_append_right (Nat.le_of_eq Array.length_toList), Array.length_toList,
    Nat.sub_self]
  rfl

/-- A jump that was written is found again, and what it pointed to makes no difference. -/
theorem extend_patch? (d : Draft) {jump jump' : Instruction}
    (h : ∀ target, jump.retarget target = jump'.retarget target) (code : List Instruction)
    (names : Names) :
    (d.extend (jump :: code) names).patch? d.size jump
      = some ((d.extend (jump' :: code) names).patch d.size) := by
  have hpatch := fun i => d.extend_patch [] code i names
  simp only [List.nil_append, List.length_nil, Nat.add_zero] at hpatch
  rw [patch?, if_pos (extend_getElem? d jump code names), hpatch, hpatch, h]

end Draft

/-- The code of a node behind one more instruction. -/
theorem emit_push (n : Node) (d : Draft) (i : Instruction) :
    emit n (d.push i) = d.extend (i :: layout n (d.size + 1) d.names) (mention n d.names) := by
  rw [emit_eq, Draft.push_eq_extend, Draft.extend_extend, Draft.extend_size]
  rfl

mutual

/-- Writes the code of a node, with a number for the targets that are not known yet, and
    makes sure of each jump before it is patched. -/
def emit? (hole : Nat) : Node → Draft → Option Draft
  | .sequence statements, d => emitAll? hole statements d
  | .text s, d => some (d.push (.printText s))
  | .print e, d => (emit? hole e d).map fun d => d.push .printTop
  | .integer n, d => some (d.push (.pushInteger n))
  | .nil, d => some (d.push .pushNil)
  | .lookup name, d => some ((d.intern name).push (.lookup (d.names.keyOf name)))
  | .array elements, d =>
    (emitReversed? hole elements d).map fun d => d.push (.makeArray elements.length)
  | .binary op lhs rhs, d =>
    (emit? hole rhs d).bind fun d => (emit? hole lhs d).map fun d => d.push (.operate op)
  | .ifThen condition body, d =>
    (emit? hole condition d).bind fun d =>
      (emit? hole body (d.push (.jumpIfFalse hole))).bind fun d' =>
        d'.patch? d.size (.jumpIfFalse hole)
  | .forEach name iterable body, d =>
    (emit? hole iterable d).bind fun d =>
      (emit? hole body ((d.intern name).push (.beginFor (d.names.keyOf name) hole))).bind fun d' =>
        (d'.push (.checkFor (d.size + 1))).patch? d.size (.beginFor (d.names.keyOf name) hole)

/-- Writes the code of nodes in order. -/
def emitAll? (hole : Nat) : List Node → Draft → Option Draft
  | [], d => some d
  | n :: ns, d => (emit? hole n d).bind (emitAll? hole ns)

/-- Writes the code of nodes from the last to the first. -/
def emitReversed? (hole : Nat) : List Node → Draft → Option Draft
  | [], d => some d
  | n :: ns, d => (emitReversed? hole ns d).bind (emit? hole n)

end

mutual

/-- A jump that is patched is always the one that its node has written and that was open
    since, and none is open in the end. -/
theorem emit?_eq (hole : Nat) : (n : Node) → ∀ d : Draft, emit? hole n d = some (emit n d)
  | .sequence statements, d => emitAll?_eq hole statements d
  | .text _, _ => rfl
  | .print e, d => by rw [emit?, emit?_eq hole e, Option.map_some, emit]
  | .integer _, _ => rfl
  | .nil, _ => rfl
  | .lookup _, _ => rfl
  | .array elements, d => by rw [emit?, emitReversed?_eq hole elements, Option.map_some, emit]
  | .binary op lhs rhs, d => by
      rw [emit?, emit?_eq hole rhs, Option.bind_some, emit?_eq hole lhs, Option.map_some, emit]
  | .ifThen condition body, d => by
      rw [emit?, emit?_eq hole condition, Option.bind_some, emit?_eq hole body, Option.bind_some,
        emit, emit_push, emit_push]
      refine Draft.extend_patch? (emit condition d) ?_ _ _
      intro target
      rfl
  | .forEach name iterable body, d => by
      rw [emit?, emit?_eq hole iterable, Option.bind_some, emit?_eq hole body, Option.bind_some,
        emit, emit_push, emit_push, Draft.extend_push, Draft.extend_push]
      -- That the name is mentioned does not move the beginning of the loop.
      refine Draft.extend_patch? ((emit iterable d).intern name) ?_ _ _
      intro target
      rfl

theorem emitAll?_eq (hole : Nat) : (ns : List Node) → ∀ d : Draft,
    emitAll? hole ns d = some (emitAll ns d)
  | [], _ => rfl
  | n :: ns, d => by
      rw [emitAll?, emit?_eq hole n, Option.bind_some, emitAll?_eq hole ns, emitAll]

theorem emitReversed?_eq (hole : Nat) : (ns : List Node) → ∀ d : Draft,
    emitReversed? hole ns d = some (emitReversed ns d)
  | [], _ => rfl
  | n :: ns, d => by
      rw [emitReversed?, emitReversed?_eq hole ns, Option.bind_some, emit?_eq hole n, emitReversed]

end

/-- Writing the code of a node leaves in front what is written. -/
theorem prefix_emit (n : Node) (d : Draft) : d.code.toList <+: (emit n d).code.toList := by
  rw [emit_eq, Draft.extend, Array.toList_appendList]
  exact List.prefix_append _ _

/-- The jumps of the program of a tree fit together. -/
structure WellStructured (root : Node) (code : Array Instruction) : Prop where
  /-- The stop is the last instruction and no other one. -/
  stop_last : ∀ k : Nat, code[k]? = some .stop ↔ k + 1 = code.size
  /-- No jump goes behind the stop. -/
  target_lt : ∀ (k : Nat) (i : Instruction) target, code[k]? = some i → i.target? = some target →
    target < code.size
  /-- No jump is open, unless the program is too long for any number. -/
  closed : code.size ≤ noTarget → ∀ (k : Nat) (i : Instruction), code[k]? = some i →
    i.target? ≠ some noTarget
  /-- All jumps go forward but those of checks. -/
  forward : ∀ (k : Nat) (i : Instruction), code[k]? = some i → i.GoesForward k
  /-- The beginning of a loop jumps right behind a check that jumps right behind it. -/
  check_of_begin : ∀ (k : Nat) key target, code[k]? = some (.beginFor key target) →
    ∃ c, target = c + 1 ∧ code[c]? = some (.checkFor (k + 1))
  /-- Each check belongs to the beginning of one loop in this way. -/
  begin_of_check : ∀ (c : Nat) target, code[c]? = some (.checkFor target) →
    ∃! k, target = k + 1 ∧ ∃ key, code[k]? = some (.beginFor key (c + 1))
  /-- A jump in the code of a node stays in it or goes right behind it. -/
  within : ∀ p ∈ root.parts 0, ∀ (k : Nat) (i : Instruction) target, p.start ≤ k → k < p.stop →
    code[k]? = some i → i.target? = some target → p.start ≤ target ∧ target ≤ p.stop
  /-- What two jumps go over is apart, or one is inside the other. -/
  laminar : ∀ (k : Nat) (i : Instruction) r (k' : Nat) (i' : Instruction) r', code[k]? = some i →
    i.range? k = some r → code[k']? = some i' → i'.range? k' = some r' → Laminar r r'

section

variable {root : Node} {k : Nat} {i : Instruction}

theorem compile_code_of_mem (h : (i, k) ∈ (layout root 0 .empty).zipIdx) :
    (compile root).code[k]? = some i := by
  rw [← Array.getElem?_toList, compile_code, ← List.mk_mem_zipIdx_iff_getElem?, List.zipIdx_append]
  exact List.mem_append_left _ h

/-- The instructions of a program but the stop are those of the layout of its tree. -/
theorem mem_of_compile_code (h : (compile root).code[k]? = some i) (hi : i ≠ .stop) :
    (i, k) ∈ (layout root 0 .empty).zipIdx := by
  rw [← Array.getElem?_toList, compile_code, ← List.mk_mem_zipIdx_iff_getElem?, List.zipIdx_append,
    List.mem_append] at h
  refine h.resolve_right fun hstop => hi ?_
  exact congrArg Prod.fst (List.mem_singleton.mp hstop)

theorem target?_ne_stop {target : Nat} (h : i.target? = some target) : i ≠ .stop := by
  rintro rfl
  exact nomatch h

theorem range?_ne_stop {r : Nat × Nat} (h : i.range? k = some r) : i ≠ .stop := by
  rintro rfl
  exact nomatch h

theorem compile_target_lt {target : Nat} (h : (compile root).code[k]? = some i)
    (htarget : i.target? = some target) : target < (compile root).code.size := by
  have hsize : (compile root).code.size = root.codeSize + 1 := compile_size root
  rcases compile_code_cases root h with ⟨_, rfl⟩ | ⟨_, hstays⟩
  · exact nomatch htarget
  · have := (hstays.2 target htarget).2
    omega

/-- A jump in the code of a part stays in it or goes right behind it. -/
theorem Part.PlacedIn.staysIn {p : Part} {code : List Instruction} {table : Names}
    (h : p.PlacedIn 0 code table) (hstart : p.start ≤ k) (hstop : k < p.stop)
    (hi : code[k]? = some i) : i.StaysIn p.start p.stop := by
  rcases h with ⟨names, front, back, rfl, hfront, _⟩
  rw [Nat.zero_add] at hfront
  have hlength := layout_length p.node p.start names
  unfold Part.stop at hstop
  -- Counted from its start, the instruction is one of the part's own.
  rw [List.getElem?_append_right (by omega), ← hfront,
    List.getElem?_append_left (by omega)] at hi
  exact layout_staysIn p.node p.start names _ i hi

theorem compile_stop_iff :
    (compile root).code[k]? = some .stop ↔ k + 1 = (compile root).code.size := by
  have hsize : (compile root).code.size = root.codeSize + 1 := compile_size root
  constructor
  · intro h
    rcases compile_code_cases root h with ⟨rfl, _⟩ | ⟨_, hstays⟩
    · exact hsize.symm
    · exact absurd rfl hstays.1
  · intro hk
    have hlt : k < (compile root).code.size := by omega
    have hcode := Array.getElem?_eq_getElem hlt
    rcases compile_code_cases root hcode with ⟨_, hstop⟩ | ⟨hinside, _⟩
    · rw [hcode, hstop]
    · omega

theorem compile_forward (h : (compile root).code[k]? = some i) : i.GoesForward k := by
  by_cases hstop : i = .stop
  · subst hstop
    trivial
  · have hmem := List.mk_mem_zipIdx_iff_getElem?.mp (mem_of_compile_code h hstop)
    have hforward := (layout_structured root 0 .empty).forward k i hmem
    rwa [Nat.zero_add] at hforward

theorem compile_check_of_begin {key target : Nat}
    (h : (compile root).code[k]? = some (.beginFor key target)) :
    ∃ c, target = c + 1 ∧ (compile root).code[c]? = some (.checkFor (k + 1)) := by
  have hlayout := layout_structured root 0 .empty
  rcases hlayout.check_of_begin (mem_of_compile_code h nofun) with ⟨c, htarget, hc⟩
  exact ⟨c, htarget, compile_code_of_mem hc⟩

theorem compile_begin_of_check {c target : Nat}
    (h : (compile root).code[c]? = some (.checkFor target)) :
    ∃! k, target = k + 1 ∧ ∃ key, (compile root).code[k]? = some (.beginFor key (c + 1)) := by
  have hlayout := layout_structured root 0 .empty
  rcases hlayout.begin_of_check (mem_of_compile_code h nofun) with ⟨k, key, rfl, hk⟩
  refine ⟨k, ⟨rfl, key, compile_code_of_mem hk⟩, fun k' hk' => ?_⟩
  -- The check jumps right behind the beginning, so there is no choice.
  exact (Nat.succ.inj hk'.1).symm

theorem compile_within {p : Part} (hp : p ∈ root.parts 0) {target : Nat} (hstart : p.start ≤ k)
    (hstop : k < p.stop) (h : (compile root).code[k]? = some i)
    (htarget : i.target? = some target) :
    p.start ≤ target ∧ target ≤ p.stop := by
  have hmem := mem_of_compile_code h (target?_ne_stop htarget)
  have hplaced := placedIn_layout root 0 .empty p hp
  exact (hplaced.staysIn hstart hstop (List.mk_mem_zipIdx_iff_getElem?.mp hmem)).2 target htarget

theorem mem_jumpRanges {r : Nat × Nat} (h : (compile root).code[k]? = some i)
    (hr : i.range? k = some r) : r ∈ jumpRanges 0 (layout root 0 .empty) :=
  List.mem_filterMap.mpr ⟨(i, k), mem_of_compile_code h (range?_ne_stop hr), hr⟩

end

/-- Writing the code of a node onto a draft only appends. Each jump that is patched meanwhile
    is the one that its own node has written and nothing else has touched since, whatever
    number stands for a target that is not known. The program of any tree, well formed or
    not, holds the code of each part in its place and ends with its only stop. All its jumps
    are closed, and they fit together. -/
theorem compile_wellStructured :
    (∀ (n : Node) (d : Draft), d.code.toList <+: (emit n d).code.toList ∧
      ∀ hole, emit? hole n d = some (emit n d)) ∧
    ∀ root : Node, (compile root).HoldsParts root ∧ WellStructured root (compile root).code := by
  refine ⟨fun n d => ⟨prefix_emit n d, fun hole => emit?_eq hole n d⟩,
    fun root => ⟨compile_holdsParts root, ?_⟩⟩
  have hlaminar := (layout_structured root 0 .empty).laminar
  exact {
    stop_last := fun _ => compile_stop_iff
    target_lt := fun _ _ _ => compile_target_lt
    closed := fun hshort _ _ h htarget => Nat.not_lt.mpr hshort (compile_target_lt h htarget)
    forward := fun _ _ => compile_forward
    check_of_begin := fun _ _ _ => compile_check_of_begin
    begin_of_check := fun _ _ => compile_begin_of_check
    within := fun _ hp _ _ _ => compile_within hp
    laminar := fun _ _ _ _ _ _ h hr h' hr' =>
      hlaminar.forall_of_forall (fun r _ => laminar_self r) (mem_jumpRanges h hr)
        (mem_jumpRanges h' hr') }

end Stencil
