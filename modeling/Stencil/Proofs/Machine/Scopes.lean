import Stencil.Machine.Scopes

/-!
# Scopes of Loops

What a loop's scope binds, and what the next one does.

The items of a scope are kept in three parts, of which only the middle one is bound. Here
they are one list again, with a cursor that is behind the bound one. Moving on to the next
item changes the cursor and neither the items nor the name.

## Theorems

* `Scope.getElem?_items`: The cursor is behind the current item.
* `Scope.advance?_eq_some`, `Scope.advance?_eq_none`: The next item, up to the last.
* `Scopes.lookup_push`: A scope binds its own name over the scopes below.
-/

namespace Stencil

namespace Scope

variable {s next : Scope} {key : Nat} {items : List Value}

theorem cursor_pos (s : Scope) : 1 ≤ s.cursor :=
  Nat.le_add_left 1 _

theorem length_items (s : Scope) : s.items.length = s.cursor + s.upcoming.length := by
  simp only [items, cursor, List.length_append, List.length_reverse, List.length_cons]
  omega

/-- The cursor is behind the current item. -/
theorem getElem?_items (s : Scope) : s.items[s.cursor - 1]? = some s.current := by
  simp only [items, cursor, Nat.add_sub_cancel]
  rw [← List.length_reverse, List.getElem?_append_right (Nat.le_refl _), Nat.sub_self,
    List.getElem?_cons_zero]

theorem begin?_eq_some (h : begin? key items = some s) :
    s.key = key ∧ s.items = items ∧ s.cursor = 1 := by
  cases items with
  | nil => exact nomatch h
  | cons v vs =>
      cases h
      exact ⟨rfl, rfl, rfl⟩

/-- The next item is bound under the same name among the same items. -/
theorem advance?_eq_some (h : s.advance? = some next) :
    next.key = s.key ∧ next.items = s.items ∧ next.cursor = s.cursor + 1 ∧
      s.cursor < s.items.length := by
  have hlength := s.length_items
  unfold advance? at h
  split at h
  · exact nomatch h
  · rename_i v vs hup
    cases h
    rw [hup, List.length_cons] at hlength
    refine ⟨rfl, ?_, rfl, by omega⟩
    simp only [items, hup, List.reverse_cons, List.append_assoc, List.singleton_append]

theorem advance?_eq_none (h : s.advance? = none) : s.cursor = s.items.length := by
  have hlength := s.length_items
  unfold advance? at h
  split at h
  · rename_i hup
    rw [hlength, hup, List.length_nil, Nat.add_zero]
  · exact nomatch h

end Scope

/-- A scope binds its own name over the scopes below. -/
theorem Scopes.lookup_push (s : Scopes) (scope : Scope) (key : Nat) :
    (s.push scope).lookup key = if scope.key = key then scope.current else s.lookup key := by
  simp only [Scopes.lookup, Scopes.push, List.find?_cons]
  by_cases hkey : scope.key = key
  · rw [beq_iff_eq.mpr hkey, if_pos hkey]
  · rw [beq_eq_false_iff_ne.mpr hkey, if_neg hkey]

end Stencil
