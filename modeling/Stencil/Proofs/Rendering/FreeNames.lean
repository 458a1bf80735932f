import Stencil.Proofs.Rendering
import Stencil.Proofs.Template.FreeNames
import Stencil.Proofs.Vars

/-!
# Which Variables a Rendering Depends On

A source is rendered alike with any variables that agree on the free names of its tree.

The machine looks names up by keys, and a name has one key wherever it stands, bound by a
loop or not. So two runs have the same keys in their root scopes with different values
behind them, and only the scopes of the loops hide the difference. On the template this is
plain: the output depends on the environment at the free names alone, and the root scope is
nothing but the environment that the variables make.

## Theorems

* `render_congr`: Variables that agree on the free names are rendered alike, variables with
  another name change nothing, and neither does the order in which they come.
-/

namespace Stencil

section

variable {source : String} {root : Node} {vars vars' : Vars}

theorem render_of_agree (h : readTemplate source = .ok root)
    (hagree : ∀ name ∈ root.freeNames, vars.get? name = vars'.get? name) :
    render source vars = render source vars' := by
  rcases exists_template_of_readTemplate h with ⟨t, rfl⟩
  rw [render_eq_output h, render_eq_output h, output_congr t hagree]

end

/-- A source that is read is rendered to the same output, or fails in the same way at the
    same instruction, with any variables that give every free name of its tree the same
    value or both none. In particular a variable whose name is not free changes nothing,
    such as one that is only read inside a loop over its name, and variables with different
    names may be given in any order. -/
theorem render_congr :
    (∀ source root, readTemplate source = .ok root → ∀ vars vars',
      (∀ name ∈ root.freeNames, vars.get? name = vars'.get? name) →
      render source vars = render source vars') ∧
    (∀ source root, readTemplate source = .ok root → ∀ vars name value,
      name ∉ root.freeNames → render source (vars.insert name value) = render source vars) ∧
    ∀ source pairs pairs', pairs.Perm pairs' → (pairs.map Prod.fst).Nodup →
      render source (.ofList pairs) = render source (.ofList pairs') := by
  refine ⟨fun source root h vars vars' => render_of_agree h, ?_, ?_⟩
  · intro source root h vars name value hfree
    refine render_of_agree h fun other hother => ?_
    have hne : other ≠ name := fun heq => hfree (heq ▸ hother)
    rw [Vars.get?_insert, if_neg hne]
  · intro source pairs pairs' hperm hnames
    rw [Vars.ofList_perm hperm hnames]

/-- The name of a loop is hidden inside the loop, and not in its iterable. -/
theorem render_congr_loop :
    render "[% for x in y %][% x %][% end %]" (Vars.empty.insert "x" (.text "seen")) =
      render "[% for x in y %][% x %][% end %]" .empty := by
  have hread : readTemplate "[% for x in y %][% x %][% end %]" =
      .ok (Template.node [.forEach "x" (.lookup "y") [.print (.lookup "x")]]) :=
    readTemplate_eq_ok_iff.mpr ⟨[.tagOpen, .keyword .forWord, .identifier "x", .keyword .inWord,
      .identifier "y", .tagClose, .tagOpen, .identifier "x", .tagClose, .tagOpen,
      .keyword .endWord, .tagClose], by decide +kernel, rfl⟩
  exact render_congr.2.1 _ _ hread .empty "x" _ (by decide +kernel)

end Stencil
