import Mathlib.Data.List.Sort
import Stencil.Vars

/-!
# Variables as Values of Names

Variables are known by the value of each name.

The entries of variables are kept in the order of their names, so a name has at most one
entry, and the entries are determined by what `Vars.get?` says of every name. Which
insertions variables came about by, and in which order, leaves no trace.

## Theorems

* `get?_eq_some_iff`: A name has a value where there is an entry for it.
* `eq_of_get?`: Variables that give every name the same value are the same.
* `get?_insert`: One name has the new value, and all others keep theirs.
* `insert_comm`: Two names get their values in either order.
* `ofList_perm`: The order of pairs with different names does not matter.
-/

namespace Stencil

namespace Vars

variable {a b : Vars} {name other : String} {value : Value}

/-- A name has a value where there is an entry for it. -/
theorem get?_eq_some_iff : a.get? name = some value ↔ (name, value) ∈ a.entries := by
  rw [get?, List.lookup_eq_some_iff]
  constructor
  · rintro ⟨front, back, hentries, _⟩
    rw [hentries]
    exact List.mem_append_right _ List.mem_cons_self
  · intro hmem
    rcases List.append_of_mem hmem with ⟨front, back, hentries⟩
    refine ⟨front, back, hentries, fun entry hentry => ?_⟩
    -- All entries in front have smaller names.
    have hsorted := a.sorted
    rw [hentries] at hsorted
    have hlt := (List.pairwise_append.mp hsorted).2.2 entry hentry _ List.mem_cons_self
    have hne : name ≠ entry.1 := fun heq => String.lt_irrefl name (by rwa [Before, ← heq] at hlt)
    exact bne_iff_ne.mpr hne

/-- No name has two entries. -/
theorem nodup_names (vars : Vars) : (vars.entries.map Prod.fst).Nodup := by
  refine List.pairwise_map.mpr (vars.sorted.imp fun {x y} hlt heq => ?_)
  rw [Before, heq] at hlt
  exact String.lt_irrefl _ hlt

/-- Variables that give every name the same value are the same. -/
theorem eq_of_get? (h : ∀ name, a.get? name = b.get? name) : a = b := by
  have hmem : ∀ entry, entry ∈ a.entries ↔ entry ∈ b.entries := by
    rintro ⟨name, value⟩
    rw [← get?_eq_some_iff, ← get?_eq_some_iff, h name]
  have hnodup : ∀ c : Vars, c.entries.Nodup := fun c => c.nodup_names.of_map Prod.fst
  have hperm : a.entries.Perm b.entries :=
    (List.perm_ext_iff_of_nodup (hnodup a) (hnodup b)).mpr hmem
  -- Both lists of entries are in the order of the names.
  have hentries : a.entries = b.entries := by
    refine hperm.eq_of_pairwise (fun x y _ _ hxy hyx => ?_) a.sorted b.sorted
    exact absurd (String.lt_trans hxy hyx) (String.lt_irrefl _)
  cases a
  cases b
  cases hentries
  rfl

theorem lookup_entry (other n : String) (v : Value) (rest : List (String × Value)) :
    ((n, v) :: rest).lookup other = if other = n then some v else rest.lookup other := by
  by_cases hn : other = n
  · rw [if_pos hn, hn, List.lookup_cons_self]
  · rw [if_neg hn, List.lookup_cons, beq_eq_false_iff_ne.mpr hn]

theorem lookup_put (name other : String) (value : Value) (entries : List (String × Value)) :
    (put name value entries).lookup other =
      if other = name then some value else entries.lookup other := by
  induction entries with
  | nil => exact lookup_entry other name value []
  | cons entry rest ih =>
      rcases entry with ⟨n, v⟩
      simp only [put]
      split
      · exact lookup_entry other name value _
      · split
        · -- The entry of the name itself is replaced.
          rename_i _ heq
          subst heq
          rw [lookup_entry, lookup_entry]
          by_cases hname : other = name
          · rw [if_pos hname, if_pos hname]
          · rw [if_neg hname, if_neg hname, if_neg hname]
        · rename_i _ hne
          rw [lookup_entry, lookup_entry, ih]
          by_cases hn : other = n
          · rw [if_pos hn, if_pos hn, if_neg fun hname => hne (hname.symm.trans hn)]
          · rw [if_neg hn, if_neg hn]

/-- One name has the new value, and all others keep theirs. -/
theorem get?_insert (a : Vars) (name other : String) (value : Value) :
    (a.insert name value).get? other = if other = name then some value else a.get? other :=
  lookup_put name other value a.entries

/-- Two names get their values in either order. -/
theorem insert_comm (a : Vars) {name other : String} (hne : name ≠ other) (value value' : Value) :
    (a.insert name value).insert other value' = (a.insert other value').insert name value := by
  refine eq_of_get? fun n => ?_
  rw [get?_insert, get?_insert, get?_insert, get?_insert]
  by_cases hn : n = name
  · rw [if_pos hn, if_neg (hn ▸ hne), if_pos hn]
  · rw [if_neg hn, if_neg hn]

/-- The order of pairs with different names does not matter. -/
theorem ofList_perm {pairs pairs' : List (String × Value)} (hperm : pairs.Perm pairs')
    (hnames : (pairs.map Prod.fst).Nodup) : ofList pairs = ofList pairs' := by
  refine hperm.foldl_eq' (fun x hx y hy vars => ?_) empty
  by_cases hxy : x.1 = y.1
  · rw [List.inj_on_of_nodup_map hnames hx hy hxy]
  · exact insert_comm vars hxy x.2 y.2

end Vars

end Stencil
