import Stencil.Value

/-!
# Scopes

What names are bound to while a program runs. The root scope holds the variables
of the run and stays as it is. Each running loop has a scope above it, which binds
one name to one item after another.

A loop's scope is a place in its array: the items already bound, the current one,
and those still to come. So a scope always has a current item, and it exists only
for an array with at least one.

## Main definitions

* `Scope`: A loop's name and its place among the items.
* `Scope.begin?`: The scope in front of the first item.
* `Scope.advance?`: The scope with the next item bound.
* `Scope.items`, `Scope.cursor`: All items, and how many have been bound.
* `Scopes`: The root scope and the scopes of the running loops.
* `Scopes.lookup`: The value a name is bound to.
-/

namespace Stencil

/-- The scope of a running loop. The items that were bound before are kept last one
    first. -/
structure Scope where
  key : Nat
  passed : List Value
  current : Value
  upcoming : List Value
deriving Repr, DecidableEq

namespace Scope

/-- The scope with the first item bound, if there are items. -/
def begin? (key : Nat) : List Value → Option Scope
  | [] => none
  | v :: vs => some ⟨key, [], v, vs⟩

/-- The scope with the next item bound, if there is one. -/
def advance? (s : Scope) : Option Scope :=
  match s.upcoming with
  | [] => none
  | v :: vs => some ⟨s.key, s.current :: s.passed, v, vs⟩

/-- All items of the loop, in order. -/
def items (s : Scope) : List Value :=
  s.passed.reverse ++ s.current :: s.upcoming

/-- The number of items bound so far, the current one included. -/
def cursor (s : Scope) : Nat :=
  s.passed.length + 1

end Scope

/-- The root scope and the scopes of the running loops, the innermost first. -/
structure Scopes where
  root : Nat → Option Value
  loops : List Scope

namespace Scopes

/-- The root scope alone. -/
def ofRoot (root : Nat → Option Value) : Scopes :=
  ⟨root, []⟩

/-- The number of scopes, the root among them. -/
def depth (s : Scopes) : Nat :=
  s.loops.length + 1

/-- A loop's scope on top of the others. -/
def push (s : Scopes) (scope : Scope) : Scopes :=
  { s with loops := scope :: s.loops }

/-- The innermost loop's scope, if a loop is running. -/
def innermost? (s : Scopes) : Option Scope :=
  s.loops.head?

/-- The scopes without the innermost loop's. The root is never removed. -/
def pop (s : Scopes) : Scopes :=
  { s with loops := s.loops.tail }

/-- The scopes with another one in place of the innermost loop's. -/
def replace (s : Scopes) (scope : Scope) : Scopes :=
  { s with loops := scope :: s.loops.tail }

/-- The value a name is bound to: by the innermost loop that binds it, else by the
    root, else nil. -/
def lookup (s : Scopes) (key : Nat) : Value :=
  match s.loops.find? (·.key == key) with
  | some scope => scope.current
  | none => Value.ofOption (s.root key)

end Scopes

end Stencil
