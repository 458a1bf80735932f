import Stencil.Proofs.Grammar.Soundness

/-!
# What the Reader Recognizes

The reader takes in exactly the templates of the grammar whose nesting is within the
limit.

That a phrase within the limit is read and that what is read is a phrase is shown for
each direction on its own. What is missing is that the limit holds of what was read:
the reader checks it where a block or an array opens, long before the tree around it is
complete. `Reader.depth` is the nesting that the tree of a state has at least, counted
from the root. A step only raises it where it opens a block or an array, and there it
checks the limit.

Since each token list leads the reader to one tree at most, the grammar derives at most
one tree for it. This takes no limit: a reader without one takes in every template.

## Main definitions

* `Chain.nesting`, `OpenTag.nesting`, `Place.nesting`: The nesting inside an open tag.
* `blocksDepth`: The nesting in and around open blocks.
* `Reader.depth`: The nesting of what a state has read.

## Theorems

* `step_depth`: A step keeps the depth within the limit.
* `readTree_eq_ok_iff`: Exactly the templates within the limit are read.
* `template_unique`: A list of tokens is a template with one tree at most.
* `parse_eq_ok_iff`: Exactly the templates of bounded nesting are parsed, each into the
  only tree it has.
-/

namespace Stencil

open Reader

theorem Node.nestingAll_reverse (ns : List Node) :
    Node.nestingAll ns.reverse = Node.nestingAll ns := by
  induction ns with
  | nil => rfl
  | cons n ns ih => rw [List.reverse_cons, nestingAll_concat, ih, nestingAll, Nat.max_comm]

/-- The nesting of the left operand of an operator that waits. -/
def Pending.nesting : Pending → Nat
  | none => 0
  | some (_, lhs) => lhs.nesting

/-- The greatest nesting of a left operand that waits. -/
def Chain.nesting (c : Chain) : Nat :=
  max c.sum.nesting c.product.nesting

theorem Pending.nesting_apply (p : Pending) (rhs : Node) :
    (p.apply rhs).nesting = max p.nesting rhs.nesting := by
  rcases p with _ | ⟨op, lhs⟩
  · simp only [apply, nesting, Nat.zero_max]
  · rfl

theorem Chain.nesting_close (c : Chain) (value : Node) :
    (c.close value).nesting = max c.nesting value.nesting := by
  rw [close, Pending.nesting_apply, Pending.nesting_apply, nesting, Nat.max_assoc]

theorem Chain.nesting_push (c : Chain) (value : Node) (op : Operator) :
    (c.push value op).nesting = max c.nesting value.nesting := by
  unfold push
  split
  · -- The whole sum so far waits.
    simp only [nesting, Pending.nesting, nesting_close, Nat.max_zero]
  · -- The product so far waits inside the sum.
    simp only [nesting, Pending.nesting, Pending.nesting_apply, Nat.max_assoc]

/-- The nesting in and around open arrays, the innermost first. -/
def arraysNesting : List OpenArray → Nat
  | [] => 0
  | a :: outer => max (arraysNesting outer) (outer.length + 1 + Node.nestingAll a.elements)

theorem length_le_arraysNesting (as : List OpenArray) : as.length ≤ arraysNesting as := by
  cases as with
  | nil => exact Nat.zero_le _
  | cons a outer =>
      simp only [arraysNesting, List.length_cons]
      omega

/-- The nesting of what has been read inside a tag. -/
def OpenTag.nesting (tag : OpenTag) : Nat :=
  max tag.chain.nesting (arraysNesting tag.arrays)

/-- The nesting of what has been read of the tag that the reader is in. -/
def Place.nesting : Place → Nat
  | .operand tag => tag.nesting
  | .operator tag value => max tag.nesting (tag.arrays.length + value.nesting)
  | _ => 0

/-- A value that is no array adds nothing to the arrays around it. -/
theorem Place.nesting_operator_leaf {tag : OpenTag} {value : Node} (h : value.nesting = 0) :
    (Place.operator tag value).nesting = tag.nesting := by
  have harrays := length_le_arraysNesting tag.arrays
  simp only [nesting, OpenTag.nesting, h]
  omega

/-- The nesting of the expression of a block. -/
def BlockHead.nesting : BlockHead → Nat
  | conditional condition => condition.nesting
  | loop _ iterable => iterable.nesting

theorem BlockHead.nesting_node (head : BlockHead) (ns : List Node) :
    (head.node (.sequence ns)).nesting = max head.nesting (Node.nestingAll ns + 1) := by
  cases head <;> rfl

/-- The nesting in and around open blocks, the innermost first. -/
def blocksDepth : List OpenBlock → Nat
  | [] => 0
  | b :: outer =>
    max (blocksDepth outer)
      (outer.length + max (max (Node.nestingAll b.before) b.head.nesting) 1)

/-- How many blocks and arrays enclose each other in what a state has read. -/
def Reader.depth (r : Reader) : Nat :=
  max (blocksDepth r.blocks)
    (r.blocks.length + max (Node.nestingAll r.statements) r.place.nesting)

section

variable {limit : Option Nat}

theorem Place.nesting_of_awaits {place : Place} {tag : OpenTag} (h : place.Awaits tag) :
    tag.nesting = place.nesting := by
  cases h <;> rfl

theorem Purpose.nesting_head {purpose : Purpose} {e : Node} {head : BlockHead}
    (h : purpose.Opens e head) : head.nesting = e.nesting := by
  cases h <;> rfl

namespace Reader

variable {k k' : Nat} {place place' : Place} {ss : List Node} {bs : List OpenBlock}

/-- A step inside a tag does not raise the depth, if it does not raise the nesting of
    the tag. -/
theorem depth_inTag (hr : Fits limit (depth ⟨k, place, ss, bs⟩))
    (hplace : place'.nesting ≤ place.nesting) : Fits limit (depth ⟨k', place', ss, bs⟩) := by
  refine hr.mono ?_
  simp only [depth]
  omega

/-- A value that is no array may be read anywhere. -/
theorem depth_leaf {tag : OpenTag} {value : Node} (hr : Fits limit (depth ⟨k, place, ss, bs⟩))
    (hplace : place.Awaits tag) (hvalue : value.nesting = 0) :
    Fits limit (depth ⟨k', .operator tag value, ss, bs⟩) := by
  refine depth_inTag hr ?_
  rw [Place.nesting_operator_leaf hvalue, Place.nesting_of_awaits hplace]

/-- A step keeps the depth within the limit. -/
theorem step_depth {r s : Reader} {t : Token} (h : Step limit r t s)
    (hr : Fits limit r.depth) : Fits limit s.depth := by
  cases h with
  | text =>
      -- A text encloses nothing.
      refine hr.mono ?_
      simp only [depth, Node.nestingAll, Node.nesting]
      omega
  | tagOpen | forWord | endWord | loopVariable => exact depth_inTag hr (Nat.le_refl _)
  | ifWord | loopIn => exact depth_inTag hr (Nat.le_refl _)
  | integer hplace _ => exact depth_leaf hr hplace rfl
  | nil hplace => exact depth_leaf hr hplace rfl
  | lookup hplace => exact depth_leaf hr hplace rfl
  | @bracketOpen _ _ bs place tag hplace hfits =>
      -- The new array is empty: only its own depth is added, which the step checks.
      intro m hm
      have htag := Place.nesting_of_awaits hplace
      have hold := hr m hm
      have hnew := hfits m hm
      simp only [depth, Place.nesting, OpenTag.nesting, arraysNesting, Node.nestingAll] at *
      omega
  | arrayEnd | bracketClose | comma =>
      -- What was counted around the elements is counted in the array.
      refine depth_inTag hr ?_
      simp only [Place.nesting, OpenTag.nesting, arraysNesting, Node.nesting, Node.nestingAll,
        Node.nestingAll_reverse, List.length_cons]
      omega
  | operator =>
      refine depth_inTag hr ?_
      simp only [Place.nesting, OpenTag.nesting, Chain.nesting_push, arraysNesting]
      omega
  | print =>
      refine hr.mono ?_
      simp only [depth, Place.nesting, OpenTag.nesting, Node.nestingAll, Node.nesting,
        Chain.nesting_close]
      omega
  | openBlock hhead hfits =>
      -- The body is empty, and the expression moves from the tag to the block.
      intro m hm
      have hold := hr m hm
      have hnew := hfits m hm
      simp only [depth, blocksDepth, Place.nesting, OpenTag.nesting, Purpose.nesting_head hhead,
        Chain.nesting_close, Node.nestingAll, List.length_cons] at *
      omega
  | closeBlock =>
      -- What was counted around the body is counted in the block.
      refine hr.mono ?_
      simp only [depth, blocksDepth, Place.nesting, Node.nestingAll, BlockHead.nesting_node,
        Node.nestingAll_reverse, List.length_cons]
      omega
  | strayEnd => exact hr

theorem reads_depth {r s : Reader} {ts : List Token} (h : Reads limit r ts s)
    (hr : Fits limit r.depth) : Fits limit s.depth := by
  induction h with
  | nil => exact hr
  | cons hstep _ ih => exact ih (step_depth hstep hr)

end Reader

theorem fits_of_readTree {ts : List Token} {root : Node} (h : readTree limit ts = .ok root) :
    Fits limit root.nesting := by
  rcases run_eq_ok_iff.mp h with ⟨s, hreads, hfinish⟩
  rcases finish_eq_ok_iff.mp hfinish with ⟨_, _, rfl⟩
  -- Nothing is read at the start, so its depth is zero.
  refine (reads_depth hreads (fits_zero limit)).mono ?_
  simp only [depth, Node.nesting, Node.nestingAll_reverse]
  omega

/-- Exactly the templates of the grammar within the limit are read. -/
theorem readTree_eq_ok_iff {ts : List Token} {root : Node} :
    readTree limit ts = .ok root ↔ Grammar.Template ts root ∧ Fits limit root.nesting :=
  ⟨fun h => ⟨template_of_readTree h, fits_of_readTree h⟩, fun h => readTree_of_template h.1 h.2⟩

end

/-- A list of tokens is a template with one tree at most. -/
theorem template_unique {ts : List Token} {root root' : Node} (h : Grammar.Template ts root)
    (h' : Grammar.Template ts root') : root = root' := by
  -- Without a limit every template is read, and reading gives one tree.
  have hread : readTree none ts = .ok root := readTree_of_template h nofun
  have hread' : readTree none ts = .ok root' := readTree_of_template h' nofun
  exact Except.ok.inj (hread.symm.trans hread')

/-- Exactly the templates of bounded nesting are parsed, each into the only tree that it
    has. -/
theorem parse_eq_ok_iff :
    (∀ ts root, parse ts = .ok root ↔ Grammar.Template ts root ∧ root.nesting ≤ 256) ∧
      ∀ ts root root', Grammar.Template ts root → Grammar.Template ts root' → root = root' := by
  refine ⟨fun ts root => ?_, fun ts root root' h h' => template_unique h h'⟩
  rw [parse, readTree_eq_ok_iff]
  simp only [Fits, maxNesting, Option.mem_def, Option.some.injEq, forall_eq']

end Stencil
