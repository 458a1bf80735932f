import Stencil.Code.Draft

/-!
# Code Layout

The code of a node as a function of the address it starts at.

`emit` writes onto a draft and comes back to fill in the targets of jumps.
`layout` says what it leaves behind, without a draft and without coming back: each
target is computed from the lengths of the parts. `emit_eq` is the connection, and
with it everything about compiled code is a fact about lists.

## Main definitions

* `mention`: The names met after the code of a node.
* `layout`: The code of a node at an address.
* `Draft.extend`: A draft with code behind what is written.

## Theorems

* `modify_append_cons`: Changing the element behind a front part.
* `emit_eq`: Emitting a node appends its layout, and mentions its names.
* `compile_code`: A program is the layout of its tree at zero, then the stop.
-/

namespace Stencil

mutual

/-- The names met once the code of a node is written. -/
def mention : Node → Names → Names
  | .sequence statements, names => mentionAll statements names
  | .text _, names => names
  | .print e, names => mention e names
  | .integer _, names => names
  | .nil, names => names
  | .lookup name, names => names.intern name
  | .array elements, names => mentionReversed elements names
  | .binary _ lhs rhs, names => mention lhs (mention rhs names)
  | .ifThen condition body, names => mention body (mention condition names)
  | .forEach name iterable body, names => mention body ((mention iterable names).intern name)

/-- The names met once the code of nodes in order is written. -/
def mentionAll : List Node → Names → Names
  | [], names => names
  | n :: ns, names => mentionAll ns (mention n names)

/-- The names met once the code of nodes from the last to the first is written. -/
def mentionReversed : List Node → Names → Names
  | [], names => names
  | n :: ns, names => mention n (mentionReversed ns names)

end

mutual

/-- The code of a node that starts at an address, where some names have been met. -/
def layout : Node → Nat → Names → List Instruction
  | .sequence statements, base, names => layoutAll statements base names
  | .text s, _, _ => [.printText s]
  | .print e, base, names => layout e base names ++ [.printTop]
  | .integer n, _, _ => [.pushInteger n]
  | .nil, _, _ => [.pushNil]
  | .lookup name, _, names => [.lookup (names.keyOf name)]
  | .array elements, base, names =>
    layoutReversed elements base names ++ [.makeArray elements.length]
  | .binary op lhs rhs, base, names =>
    let right := layout rhs base names
    right ++ (layout lhs (base + right.length) (mention rhs names) ++ [.operate op])
  | .ifThen condition body, base, names =>
    let test := layout condition base names
    let inner := layout body (base + test.length + 1) (mention condition names)
    test ++ .jumpIfFalse (base + test.length + 1 + inner.length) :: inner
  | .forEach name iterable body, base, names =>
    let source := layout iterable base names
    let start := base + source.length
    let names := mention iterable names
    let inner := layout body (start + 1) (names.intern name)
    source ++ .beginFor (names.keyOf name) (start + 1 + inner.length + 1) ::
      (inner ++ [.checkFor (start + 1)])

/-- The code of nodes in order. -/
def layoutAll : List Node → Nat → Names → List Instruction
  | [], _, _ => []
  | n :: ns, base, names =>
    let first := layout n base names
    first ++ layoutAll ns (base + first.length) (mention n names)

/-- The code of nodes from the last to the first. -/
def layoutReversed : List Node → Nat → Names → List Instruction
  | [], _, _ => []
  | n :: ns, base, names =>
    let later := layoutReversed ns base names
    later ++ layout n (base + later.length) (mentionReversed ns names)

end

namespace Draft

/-- The draft with code behind what is written, and with other names. -/
def extend (d : Draft) (code : List Instruction) (names : Names) : Draft :=
  ⟨d.code ++ code, names⟩

theorem extend_size (d : Draft) (code : List Instruction) (names : Names) :
    (d.extend code names).size = d.size + code.length := by
  simp only [size, extend, ← Array.length_toList, Array.toList_appendList, List.length_append]

theorem extend_extend (d : Draft) (a b : List Instruction) (m n : Names) :
    (d.extend a m).extend b n = d.extend (a ++ b) n := by
  simp only [extend, mk.injEq, and_true]
  exact Array.ext' (by simp only [Array.toList_appendList, List.append_assoc])

theorem extend_nil (d : Draft) : d.extend [] d.names = d := by
  simp only [extend, Array.appendList_nil]

theorem extend_push (d : Draft) (code : List Instruction) (names : Names) (i : Instruction) :
    (d.extend code names).push i = d.extend (code ++ [i]) names := by
  simp only [extend, push, mk.injEq, and_true]
  exact Array.ext' (by simp only [Array.toList_push, Array.toList_appendList, List.append_assoc])

theorem push_eq_extend (d : Draft) (i : Instruction) : d.push i = d.extend [i] d.names := by
  simp only [extend, push, mk.injEq, and_true]
  exact Array.ext' (by simp only [Array.toList_push, Array.toList_appendList])

theorem extend_intern (d : Draft) (code : List Instruction) (names : Names) (name : String) :
    (d.extend code names).intern name = d.extend code (names.intern name) :=
  rfl

end Draft

/-- Changing the element right behind a front part leaves the rest as it is. -/
theorem modify_append_cons {α : Type} (front back : List α) (a : α) (f : α → α) :
    (front ++ a :: back).modify front.length f = front ++ f a :: back := by
  induction front with
  | nil => rfl
  | cons b front ih =>
      simp only [List.cons_append, List.length_cons, List.modify_succ_cons, ih]

/-- Patching the jump behind a front part points it at the end. -/
theorem Draft.extend_patch (d : Draft) (front back : List Instruction) (i : Instruction)
    (names : Names) :
    (d.extend (front ++ i :: back) names).patch (d.size + front.length)
      = d.extend (front ++ i.retarget (d.size + front.length + 1 + back.length) :: back) names := by
  -- The end of the draft, which is the new target.
  have hsize : (d.code ++ (front ++ i :: back)).size
      = d.size + front.length + 1 + back.length := by
    have h := d.extend_size (front ++ i :: back) names
    simp only [size, extend, List.length_append, List.length_cons] at h ⊢
    omega
  -- The jump's number counts what stands in front of it.
  have hlen : d.size + front.length = (d.code.toList ++ front).length := by
    simp only [size, List.length_append, Array.length_toList]
  simp only [patch, extend, hsize, mk.injEq, and_true]
  refine Array.ext' ?_
  simp only [Array.toList_modify, Array.toList_appendList, hlen, ← List.append_assoc]
  exact modify_append_cons _ _ _ _

mutual

/-- Emitting a node appends its layout and mentions its names. -/
theorem emit_eq : (n : Node) → (d : Draft) →
    emit n d = d.extend (layout n d.size d.names) (mention n d.names)
  | .sequence statements, d => by
      simp only [emit, layout, mention, emitAll_eq statements d]
  | .text s, d => by
      simp only [emit, layout, mention, Draft.push_eq_extend]
  | .print e, d => by
      simp only [emit, layout, mention, emit_eq e d, Draft.extend_push]
  | .integer n, d => by
      simp only [emit, layout, mention, Draft.push_eq_extend]
  | .nil, d => by
      simp only [emit, layout, mention, Draft.push_eq_extend]
  | .lookup name, d => by
      simp only [emit, layout, mention, Draft.push_eq_extend]
      rfl
  | .array elements, d => by
      simp only [emit, layout, mention, emitReversed_eq elements d, Draft.extend_push]
  | .binary op lhs rhs, d => by
      simp only [emit, layout, mention, emit_eq rhs d,
        emit_eq lhs (d.extend _ _), Draft.extend_size, Draft.extend_extend, Draft.extend_push,
        List.append_assoc]
      rfl
  | .ifThen condition body, d => by
      simp only [emit, layout, mention, emit_eq condition d, Draft.extend_push,
        emit_eq body (d.extend _ _), Draft.extend_size, Draft.extend_extend, List.append_assoc,
        List.cons_append, List.nil_append, List.length_append, List.length_cons, List.length_nil,
        Nat.zero_add, Draft.extend_patch, Instruction.retarget, ← Nat.add_assoc]
      rfl
  | .forEach name iterable body, d => by
      simp only [emit, layout, mention, emit_eq iterable d, Draft.extend_intern,
        Draft.extend_push, emit_eq body (d.extend _ _), Draft.extend_size, Draft.extend_extend,
        List.append_assoc, List.cons_append, List.nil_append, List.length_append,
        List.length_cons, List.length_nil, Nat.zero_add, Draft.extend_patch,
        Instruction.retarget, ← Nat.add_assoc]
      rfl

/-- Emitting nodes in order appends their layout and mentions their names. -/
theorem emitAll_eq : (ns : List Node) → (d : Draft) →
    emitAll ns d = d.extend (layoutAll ns d.size d.names) (mentionAll ns d.names)
  | [], d => by
      simp only [emitAll, layoutAll, mentionAll, Draft.extend_nil]
  | n :: ns, d => by
      simp only [emitAll, layoutAll, mentionAll, emit_eq n d, emitAll_eq ns (d.extend _ _),
        Draft.extend_size, Draft.extend_extend]
      rfl

/-- Emitting nodes from the last to the first appends their layout and mentions their
    names. -/
theorem emitReversed_eq : (ns : List Node) → (d : Draft) →
    emitReversed ns d
      = d.extend (layoutReversed ns d.size d.names) (mentionReversed ns d.names)
  | [], d => by
      simp only [emitReversed, layoutReversed, mentionReversed, Draft.extend_nil]
  | n :: ns, d => by
      simp only [emitReversed, layoutReversed, mentionReversed, emitReversed_eq ns d,
        emit_eq n (d.extend _ _), Draft.extend_size, Draft.extend_extend]
      rfl

end

/-- A finished draft is the layout of the tree at zero, and then the stop. -/
theorem emit_root (root : Node) :
    (emit root .empty).push .stop
      = Draft.empty.extend (layout root 0 .empty ++ [.stop]) (mention root .empty) := by
  rw [emit_eq, Draft.extend_push]
  rfl

/-- The code of a program is the layout of its tree at zero, and then the stop. -/
theorem compile_code (root : Node) :
    (compile root).code.toList = layout root 0 .empty ++ [.stop] := by
  simp only [compile, emit_root]
  simp only [Draft.extend, Draft.empty, Array.toList_appendList, List.nil_append]

/-- The names of a program are those its tree mentions. -/
theorem compile_names (root : Node) : (compile root).names = mention root .empty := by
  simp only [compile, emit_root, Draft.extend]

end Stencil
