import Stencil.Machine.Halting
import Stencil.Proofs.Code.Structure

/-!
# Parts of Placed Code

Where the code of each node of a tree stands.

The code of a node is the code of the nodes inside it with some instructions of its own
between and behind them. `Node.parts` gives every node of a tree the address at which its
code starts, and an address belongs to the parts whose code it stands in. Since the code
of a node encloses the code of those inside it, these parts enclose each other, and they
are listed from the outermost on.

What is around the code of a part does not depend on what the part is, and the names met
before it are some of those that the tree mentions. So what is known of the layout of any
node at any address holds of the code of each part.

## Main definitions

* `Part`, `Node.parts`: The nodes of a tree with the addresses of their code.
* `Part.Within`: The code of a part stands within bounds.
* `Part.PlacedIn`: The code of a part is a piece of some code.
* `Program.HoldsParts`: The code of each part stands in a program.

## Theorems

* `mem_parts_bounds`: The code of a part stands within that of the tree.
* `placedIn_layout`: The code of a part is a piece of the code of the tree.
* `compile_holdsParts`: A compiled program holds the parts of its tree.
* `compile_code_cases`: The instructions of a program stay in it up to the stop.
-/

namespace Stencil

/-- A node of a tree with the address at which its code starts. -/
structure Part where
  node : Node
  start : Nat

/-- The address behind the code of a part. -/
def Part.stop (p : Part) : Nat :=
  p.start + p.node.codeSize

mutual

/-- All nodes of a tree whose code starts at an address, each in front of those inside
    it. -/
def Node.parts : Node → Nat → List Part
  | .sequence statements, base => ⟨.sequence statements, base⟩ :: Node.partsAll statements base
  | .text s, base => [⟨.text s, base⟩]
  | .print e, base => ⟨.print e, base⟩ :: e.parts base
  | .integer n, base => [⟨.integer n, base⟩]
  | .nil, base => [⟨.nil, base⟩]
  | .lookup name, base => [⟨.lookup name, base⟩]
  | .array elements, base => ⟨.array elements, base⟩ :: Node.partsReversed elements base
  | .binary op lhs rhs, base =>
    ⟨.binary op lhs rhs, base⟩ :: (rhs.parts base ++ lhs.parts (base + rhs.codeSize))
  | .ifThen condition body, base =>
    ⟨.ifThen condition body, base⟩ ::
      (condition.parts base ++ body.parts (base + condition.codeSize + 1))
  | .forEach name iterable body, base =>
    ⟨.forEach name iterable body, base⟩ ::
      (iterable.parts base ++ body.parts (base + iterable.codeSize + 1))

/-- The nodes of trees whose code stands in order. -/
def Node.partsAll : List Node → Nat → List Part
  | [], _ => []
  | n :: ns, base => n.parts base ++ Node.partsAll ns (base + n.codeSize)

/-- The nodes of trees whose code stands from the last to the first. -/
def Node.partsReversed : List Node → Nat → List Part
  | [], _ => []
  | n :: ns, base => Node.partsReversed ns base ++ n.parts (base + Node.codeSizeAll ns)

end

/-- The code of the part stands within the bounds. -/
def Part.Within (lo hi : Nat) (p : Part) : Prop :=
  lo ≤ p.start ∧ p.stop ≤ hi

/-- The code of a part is a piece of some code, and the names met once it is written are
    the first of a table. -/
def Part.PlacedIn (base : Nat) (code : List Instruction) (table : Names) (p : Part) : Prop :=
  ∃ (names : Names) (front back : List Instruction),
    code = front ++ (layout p.node p.start names ++ back) ∧ p.start = base + front.length ∧
    (mention p.node names).toList <+: table.toList

namespace Part.PlacedIn

variable {p : Part} {base base' : Nat} {front back : List Instruction} {table table' : Names}

theorem left (h : p.PlacedIn base front table) (htable : table.toList <+: table'.toList) :
    p.PlacedIn base (front ++ back) table' := by
  rcases h with ⟨names, before, behind, rfl, hstart, hnames⟩
  refine ⟨names, before, behind ++ back, ?_, hstart, hnames.trans htable⟩
  rw [List.append_assoc, List.append_assoc]

theorem right (h : p.PlacedIn base' back table) (hbase : base' = base + front.length) :
    p.PlacedIn base (front ++ back) table := by
  rcases h with ⟨names, before, behind, rfl, hstart, hnames⟩
  refine ⟨names, front ++ before, behind, (List.append_assoc ..).symm, ?_, hnames⟩
  rw [hstart, hbase, List.length_append, Nat.add_assoc]

theorem cons {i : Instruction} (h : p.PlacedIn (base + 1) back table) :
    p.PlacedIn base (i :: back) table := by
  have hright : p.PlacedIn base ([i] ++ back) table := h.right rfl
  exact hright

/-- What is placed in some code stands within its bounds. -/
theorem bounds (h : p.PlacedIn base front table) : p.Within base (base + front.length) := by
  rcases h with ⟨names, before, behind, rfl, hstart, _⟩
  have hlength := layout_length p.node p.start names
  rw [List.length_append, List.length_append, hlength]
  unfold Part.Within Part.stop
  omega

theorem self (n : Node) (base : Nat) (names : Names) :
    Part.PlacedIn base (layout n base names) (mention n names) ⟨n, base⟩ := by
  refine ⟨names, [], [], ?_, rfl, List.prefix_rfl⟩
  rw [List.nil_append, List.append_nil]

end Part.PlacedIn

mutual

/-- The code of a part is a piece of the code of the tree. -/
theorem placedIn_layout : (n : Node) → ∀ (base : Nat) (names : Names), ∀ p ∈ n.parts base,
    p.PlacedIn base (layout n base names) (mention n names)
  | .sequence statements, base, names, p, hp => by
      rcases List.mem_cons.mp hp with rfl | hp
      · exact .self _ base names
      · exact placedIn_layoutAll statements base names p hp
  | .text _, base, names, p, hp => by
      rcases List.mem_singleton.mp hp with rfl
      exact .self _ base names
  | .print e, base, names, p, hp => by
      rcases List.mem_cons.mp hp with rfl | hp
      · exact .self _ base names
      · exact (placedIn_layout e base names p hp).left List.prefix_rfl
  | .integer _, base, names, p, hp => by
      rcases List.mem_singleton.mp hp with rfl
      exact .self _ base names
  | .nil, base, names, p, hp => by
      rcases List.mem_singleton.mp hp with rfl
      exact .self _ base names
  | .lookup _, base, names, p, hp => by
      rcases List.mem_singleton.mp hp with rfl
      exact .self _ base names
  | .array elements, base, names, p, hp => by
      rcases List.mem_cons.mp hp with rfl | hp
      · exact .self _ base names
      · exact (placedIn_layoutReversed elements base names p hp).left List.prefix_rfl
  | .binary op lhs rhs, base, names, p, hp => by
      rcases List.mem_cons.mp hp with rfl | hp
      · exact .self _ base names
      · rcases List.mem_append.mp hp with hp | hp
        · exact (placedIn_layout rhs base names p hp).left (prefix_mention lhs _)
        · rw [← layout_length rhs base names] at hp
          have hlhs := placedIn_layout lhs _ (mention rhs names) p hp
          exact (hlhs.left List.prefix_rfl).right rfl
  | .ifThen condition body, base, names, p, hp => by
      rcases List.mem_cons.mp hp with rfl | hp
      · exact .self _ base names
      · rcases List.mem_append.mp hp with hp | hp
        · exact (placedIn_layout condition base names p hp).left (prefix_mention body _)
        · rw [← layout_length condition base names] at hp
          exact (placedIn_layout body _ (mention condition names) p hp).cons.right rfl
  | .forEach name iterable body, base, names, p, hp => by
      rcases List.mem_cons.mp hp with rfl | hp
      · exact .self _ base names
      · rcases List.mem_append.mp hp with hp | hp
        · exact (placedIn_layout iterable base names p hp).left
            ((prefix_intern _ name).trans (prefix_mention body _))
        · rw [← layout_length iterable base names] at hp
          have hbody := placedIn_layout body _ ((mention iterable names).intern name) p hp
          exact (hbody.left List.prefix_rfl).cons.right rfl

theorem placedIn_layoutAll : (ns : List Node) → ∀ (base : Nat) (names : Names),
    ∀ p ∈ Node.partsAll ns base, p.PlacedIn base (layoutAll ns base names) (mentionAll ns names)
  | [], _, _, _, hp => nomatch hp
  | n :: ns, base, names, p, hp => by
      rcases List.mem_append.mp hp with hp | hp
      · exact (placedIn_layout n base names p hp).left (prefix_mentionAll ns _)
      · rw [← layout_length n base names] at hp
        exact (placedIn_layoutAll ns _ (mention n names) p hp).right rfl

theorem placedIn_layoutReversed : (ns : List Node) → ∀ (base : Nat) (names : Names),
    ∀ p ∈ Node.partsReversed ns base,
      p.PlacedIn base (layoutReversed ns base names) (mentionReversed ns names)
  | [], _, _, _, hp => nomatch hp
  | n :: ns, base, names, p, hp => by
      rcases List.mem_append.mp hp with hp | hp
      · exact (placedIn_layoutReversed ns base names p hp).left (prefix_mention n _)
      · rw [← layoutReversed_length ns base names] at hp
        exact (placedIn_layout n _ (mentionReversed ns names) p hp).right rfl

end

/-- The code of a part stands within that of the tree. -/
theorem mem_parts_bounds (n : Node) (base : Nat) :
    ∀ p ∈ n.parts base, p.Within base (base + n.codeSize) := by
  intro p hp
  have h := (placedIn_layout n base .empty p hp).bounds
  rwa [layout_length] at h

theorem mem_partsAll_bounds (ns : List Node) (base : Nat) :
    ∀ p ∈ Node.partsAll ns base, p.Within base (base + Node.codeSizeAll ns) := by
  intro p hp
  have h := (placedIn_layoutAll ns base .empty p hp).bounds
  rwa [layoutAll_length] at h

theorem mem_partsReversed_bounds (ns : List Node) (base : Nat) :
    ∀ p ∈ Node.partsReversed ns base, p.Within base (base + Node.codeSizeAll ns) := by
  intro p hp
  have h := (placedIn_layoutReversed ns base .empty p hp).bounds
  rwa [layoutReversed_length] at h

/-- The code of each part of a tree stands in a program at the address of the part. The names
    met once it is written are the first of those of the program. -/
def Program.HoldsParts (p : Program) (root : Node) : Prop :=
  ∀ part ∈ root.parts 0, ∃ names : Names,
    p.Placed part.start (layout part.node part.start names) ∧
      (mention part.node names).toList <+: p.names.toList

/-- A compiled program holds the parts of its tree. -/
theorem compile_holdsParts (root : Node) : (compile root).HoldsParts root := by
  intro part hpart
  rcases placedIn_layout root 0 .empty part hpart with ⟨names, front, back, hcode, hstart, hnames⟩
  have hp := (compile root).placed_toList
  rw [compile_code, hcode, List.append_assoc, List.append_assoc] at hp
  -- In front of the part's code is the front, and behind it all that is left.
  rcases Program.placed_append hp with ⟨_, hbehind⟩
  rcases Program.placed_append hbehind with ⟨hplaced, _⟩
  rw [← hstart] at hplaced
  rw [compile_names]
  exact ⟨names, hplaced, hnames⟩

/-- An instruction of a compiled program that is not the last one stays within it, and the
    last one is the stop. -/
theorem compile_code_cases (root : Node) {k : Nat} {i : Instruction}
    (h : (compile root).code[k]? = some i) :
    (k = root.codeSize ∧ i = .stop) ∨ (k < root.codeSize ∧ i.StaysIn 0 root.codeSize) := by
  rw [← Array.getElem?_toList, compile_code] at h
  by_cases hk : k < root.codeSize
  · rw [List.getElem?_append_left (by rwa [layout_length])] at h
    have hstays := layout_staysIn root 0 .empty k i h
    rw [Nat.zero_add] at hstays
    exact .inr ⟨hk, hstays⟩
  · rw [List.getElem?_append_right (by rw [layout_length]; omega), layout_length,
      List.getElem?_singleton] at h
    split at h
    · cases h
      exact .inl ⟨by omega, rfl⟩
    · exact nomatch h

theorem compile_size (root : Node) : (compile root).size = root.codeSize + 1 := by
  rw [Program.size, ← Array.length_toList, compile_code, List.length_append, layout_length,
    List.length_singleton]

end Stencil
