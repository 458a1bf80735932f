import Stencil.Code.Layout

/-!
# Sizes and Keys of Placed Code

What the code of a node has to do with where it stands.

Its address and the names met before it change what the instructions say, but not
how many they are. So `Node.codeSize` counts them on the tree alone, and an address
inside a program can be computed without any code at hand.

The table of names only ever grows at its end. A key that was right when an
instruction was written is therefore right in the finished table too, which is what
`name?_keyOf` says.

## Main definitions

* `Node.codeSize`: The number of instructions of a node.

## Theorems

* `layout_length`: The code of a node has that many instructions, wherever it stands.
* `prefix_mention`: Writing the code of a node keeps the names met before.
* `name?_keyOf`: The key of a mentioned name belongs to it in every later table.
* `name?_inj`: Two keys of one name are the same.
-/

namespace Stencil

mutual

/-- The number of instructions of a node. -/
def Node.codeSize : Node → Nat
  | .sequence statements => Node.codeSizeAll statements
  | .text _ => 1
  | .print e => e.codeSize + 1
  | .integer _ => 1
  | .nil => 1
  | .lookup _ => 1
  | .array elements => Node.codeSizeAll elements + 1
  | .binary _ lhs rhs => rhs.codeSize + lhs.codeSize + 1
  | .ifThen condition body => condition.codeSize + 1 + body.codeSize
  | .forEach _ iterable body => iterable.codeSize + 1 + body.codeSize + 1

/-- The number of instructions of nodes one behind the other, in either order. -/
def Node.codeSizeAll : List Node → Nat
  | [] => 0
  | n :: ns => n.codeSize + Node.codeSizeAll ns

end

mutual

/-- The code of a node has as many instructions wherever it stands. -/
theorem layout_length : (n : Node) → ∀ (base : Nat) (names : Names),
    (layout n base names).length = n.codeSize
  | .sequence statements, base, names => by
      simp only [layout, Node.codeSize, layoutAll_length statements]
  | .text _, _, _ => rfl
  | .print e, base, names => by
      simp only [layout, Node.codeSize, List.length_append, layout_length e, List.length_singleton]
  | .integer _, _, _ => rfl
  | .nil, _, _ => rfl
  | .lookup _, _, _ => rfl
  | .array elements, base, names => by
      simp only [layout, Node.codeSize, List.length_append, layoutReversed_length elements,
        List.length_singleton]
  | .binary op lhs rhs, base, names => by
      simp only [layout, Node.codeSize, List.length_append, layout_length rhs, layout_length lhs,
        List.length_singleton]
      omega
  | .ifThen condition body, base, names => by
      simp only [layout, Node.codeSize, List.length_append, List.length_cons,
        layout_length condition, layout_length body]
      omega
  | .forEach name iterable body, base, names => by
      simp only [layout, Node.codeSize, List.length_append, List.length_cons, List.length_nil,
        layout_length iterable, layout_length body]
      omega

theorem layoutAll_length : (ns : List Node) → ∀ (base : Nat) (names : Names),
    (layoutAll ns base names).length = Node.codeSizeAll ns
  | [], _, _ => rfl
  | n :: ns, base, names => by
      simp only [layoutAll, Node.codeSizeAll, List.length_append, layout_length n,
        layoutAll_length ns]

theorem layoutReversed_length : (ns : List Node) → ∀ (base : Nat) (names : Names),
    (layoutReversed ns base names).length = Node.codeSizeAll ns
  | [], _, _ => rfl
  | n :: ns, base, names => by
      -- The code of the first node stands last, so the sizes add up in the other order.
      simp only [layoutReversed, Node.codeSizeAll, List.length_append, layout_length n,
        layoutReversed_length ns]
      omega

end

/-- A mentioned name comes behind those met before. -/
theorem prefix_intern (names : Names) (name : String) :
    names.toList <+: (names.intern name).toList := by
  unfold Names.intern
  split
  · exact List.prefix_rfl
  · exact List.prefix_append _ _

mutual

/-- Writing the code of a node keeps the names met before, in front of new ones. -/
theorem prefix_mention : (n : Node) → ∀ names : Names, names.toList <+: (mention n names).toList
  | .sequence statements, names => prefix_mentionAll statements names
  | .text _, _ => List.prefix_rfl
  | .print e, names => prefix_mention e names
  | .integer _, _ => List.prefix_rfl
  | .nil, _ => List.prefix_rfl
  | .lookup name, names => prefix_intern names name
  | .array elements, names => prefix_mentionReversed elements names
  | .binary _ lhs rhs, names => (prefix_mention rhs names).trans (prefix_mention lhs _)
  | .ifThen condition body, names => (prefix_mention condition names).trans (prefix_mention body _)
  | .forEach name iterable body, names =>
      ((prefix_mention iterable names).trans (prefix_intern _ name)).trans (prefix_mention body _)

theorem prefix_mentionAll : (ns : List Node) → ∀ names : Names,
    names.toList <+: (mentionAll ns names).toList
  | [], _ => List.prefix_rfl
  | n :: ns, names => (prefix_mention n names).trans (prefix_mentionAll ns _)

theorem prefix_mentionReversed : (ns : List Node) → ∀ names : Names,
    names.toList <+: (mentionReversed ns names).toList
  | [], _ => List.prefix_rfl
  | n :: ns, names => (prefix_mentionReversed ns names).trans (prefix_mention n _)

end

/-- The key of a mentioned name belongs to it in every table that begins with the names
    met by then. -/
theorem name?_keyOf {names table : Names} {name : String}
    (h : (names.intern name).toList <+: table.toList) :
    table.name? (names.keyOf name) = some name := by
  rcases h with ⟨later, hlater⟩
  simp only [Names.name?, Names.keyOf, ← hlater]
  by_cases hmem : name ∈ names.toList
  · -- A name that was met before keeps its place.
    have hlt := List.idxOf_lt_length_of_mem hmem
    simp only [Names.intern, hmem, ↓reduceDIte]
    rw [List.getElem?_append_left hlt, List.getElem?_eq_getElem hlt, List.getElem_idxOf]
  · -- A new name stands right behind all others, and that is its key.
    simp only [Names.intern, hmem, ↓reduceDIte, List.idxOf_eq_length hmem]
    rw [List.append_assoc, List.getElem?_append_right (Nat.le_refl _), Nat.sub_self]
    rfl

/-- Two keys of one name are the same. -/
theorem name?_inj {names : Names} {j k : Nat} {name : String} (hj : names.name? j = some name)
    (hk : names.name? k = some name) : j = k := by
  -- No name stands in a table twice.
  have hlt := (List.getElem?_eq_some_iff.mp hj).1
  exact (List.getElem?_inj hlt names.nodup).mp (hj.trans hk.symm)

end Stencil
