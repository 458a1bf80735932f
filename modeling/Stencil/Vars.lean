import Stencil.Value

/-!
# Variables

The named values that a template is rendered with. Each name has at most one
value, and the names are kept in increasing order, so two sets of variables that
give every name the same value are the same, however they came about.

## Main definitions

* `Vars`: Values by name.
* `Vars.get?`: The value of a name.
* `Vars.insert`: One name with a new value.
* `Vars.ofList`: The variables of a list of pairs, a later pair before an earlier.

## Theorems

* `Vars.mem_put`: What an entry of the variables is after one is put in.
* `Vars.put_sorted`: Putting an entry in keeps the order.
-/

namespace Stencil

namespace Vars

/-- One entry comes before another in the order of their names. -/
def Before (a b : String × Value) : Prop :=
  a.1 < b.1

/-- Puts an entry at its place in the order, in place of one with the same name. -/
def put (name : String) (value : Value) : List (String × Value) → List (String × Value)
  | [] => [(name, value)]
  | (n, v) :: rest =>
    if name < n then (name, value) :: (n, v) :: rest
    else if name = n then (name, value) :: rest
    else (n, v) :: put name value rest

/-- An entry after one is put in is the new one or was there before. -/
theorem mem_put {name : String} {value : Value} {entry : String × Value}
    {entries : List (String × Value)} (h : entry ∈ put name value entries) :
    entry = (name, value) ∨ entry ∈ entries := by
  induction entries with
  | nil => exact Or.inl (List.mem_singleton.mp h)
  | cons e rest ih =>
      rcases e with ⟨n, v⟩
      simp only [put] at h
      split at h
      · exact List.mem_cons.mp h
      · split at h
        · rcases List.mem_cons.mp h with hnew | hold
          · exact Or.inl hnew
          · exact Or.inr (List.mem_cons_of_mem _ hold)
        · rcases List.mem_cons.mp h with hfirst | hlater
          · exact Or.inr (hfirst ▸ List.mem_cons_self)
          · rcases ih hlater with hnew | hold
            · exact Or.inl hnew
            · exact Or.inr (List.mem_cons_of_mem _ hold)

/-- Putting an entry in keeps the order of names. -/
theorem put_sorted (name : String) (value : Value) {entries : List (String × Value)}
    (h : entries.Pairwise Before) : (put name value entries).Pairwise Before := by
  induction entries with
  | nil => exact List.pairwise_singleton _ _
  | cons e rest ih =>
      rcases e with ⟨n, v⟩
      rcases List.pairwise_cons.mp h with ⟨hfirst, hrest⟩
      simp only [put]
      split
      · rename_i hlt
        refine List.pairwise_cons.mpr ⟨fun e' he' => ?_, h⟩
        rcases List.mem_cons.mp he' with rfl | hmem
        · exact hlt
        · exact String.lt_trans hlt (hfirst e' hmem)
      · rename_i hge
        split
        · rename_i heq
          subst heq
          exact List.pairwise_cons.mpr ⟨hfirst, hrest⟩
        · rename_i hne
          refine List.pairwise_cons.mpr ⟨fun e' he' => ?_, ih hrest⟩
          rcases mem_put he' with rfl | hmem
          · -- Neither below nor equal, so above.
            exact Std.lt_of_le_of_ne (String.not_lt.mp hge) fun heq => hne heq.symm
          · exact hfirst e' hmem

end Vars

/-- Values by name, in increasing order of the names. -/
structure Vars where
  entries : List (String × Value)
  sorted : entries.Pairwise Vars.Before

namespace Vars

instance : DecidableEq Vars := fun a b =>
  match a, b with
  | ⟨as, _⟩, ⟨bs, _⟩ =>
    if h : as = bs then .isTrue (by subst h; rfl)
    else .isFalse fun e => h (congrArg Vars.entries e)

/-- No name has a value. -/
def empty : Vars :=
  ⟨[], List.Pairwise.nil⟩

/-- The value of a name, if it has one. -/
def get? (vars : Vars) (name : String) : Option Value :=
  vars.entries.lookup name

/-- The variables with a value for one name, in place of any it had. -/
def insert (vars : Vars) (name : String) (value : Value) : Vars :=
  ⟨put name value vars.entries, put_sorted name value vars.sorted⟩

/-- The number of names that have a value. -/
def size (vars : Vars) : Nat :=
  vars.entries.length

/-- The variables of a list of pairs, taken in order. -/
def ofList (pairs : List (String × Value)) : Vars :=
  pairs.foldl (fun vars (name, value) => vars.insert name value) empty

end Vars

end Stencil
