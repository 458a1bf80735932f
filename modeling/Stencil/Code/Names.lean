/-!
# Name Tables

A program refers to names by keys. A table gives each name it has met a key, in
the order of first mention from zero on, and never the same key to two names.

## Main definitions

* `Names`: The names a table has met, in order.
* `Names.name?`: The name of a key.
* `Names.key?`: The key of a name.
* `Names.intern`: The table after a name is mentioned.
* `Names.keyOf`: The key that a mentioned name has.
-/

namespace Stencil

/-- Different names in the order of their keys. -/
structure Names where
  toList : List String
  nodup : toList.Nodup

namespace Names

/-- No name has been met. -/
def empty : Names :=
  ⟨[], List.nodup_nil⟩

/-- The number of names. -/
def size (names : Names) : Nat :=
  names.toList.length

/-- The name of a key, if the key is one of this table. -/
def name? (names : Names) (key : Nat) : Option String :=
  names.toList[key]?

/-- The key of a name, if the table has met it. -/
def key? (names : Names) (name : String) : Option Nat :=
  names.toList.idxOf? name

theorem nodup_concat {l : List String} {name : String} (h : l.Nodup) (hn : name ∉ l) :
    (l ++ [name]).Nodup := by
  refine List.nodup_append.mpr ⟨h, List.nodup_cons.mpr ⟨List.not_mem_nil, List.nodup_nil⟩, ?_⟩
  intro a ha b hb hab
  rw [List.mem_singleton.mp hb] at hab
  exact hn (hab ▸ ha)

/-- The table after a name is mentioned: a new name comes last. -/
def intern (names : Names) (name : String) : Names :=
  if h : name ∈ names.toList then names
  else ⟨names.toList ++ [name], nodup_concat names.nodup h⟩

/-- The key that a name has once it is mentioned: its place in the table, or the next
    free key for a new name. -/
def keyOf (names : Names) (name : String) : Nat :=
  names.toList.idxOf name

end Names

end Stencil
