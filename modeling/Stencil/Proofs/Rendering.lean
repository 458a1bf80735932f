import Stencil.Proofs.Grammar.Trees
import Stencil.Proofs.Machine.Simulation
import Stencil.Proofs.Tiling.Layouts
import Stencil.Render

/-!
# What Is Rendered

Rendering a source in the terms of its tokens and its template.

A source that is scanned and parsed is a template, and what is rendered is the output of
that template: of all that can go wrong, only a fault of the run is left. So what is to be
shown of rendering can be shown of tokens, of statements and of `Template.output`, each on
its own.

## Theorems

* `readTemplate_eq_ok_iff`: A source is read where it is scanned and parsed.
* `renderNode_node`: Rendering a template's tree gives the template's output.
* `render_of_readTemplate`: What is read is rendered from its tree.
* `render_eq_ok_iff`, `render_eq_error_iff`: What is read has the output or the fault of its
  template.
* `render_eq_self`: A source without a tag is rendered to itself.
-/

namespace Stencil

/-- A source is read where it is scanned, and its tokens are parsed. -/
theorem readTemplate_eq_ok_iff {source : String} {root : Node} :
    readTemplate source = .ok root ↔
      ∃ tokens, scan source = .ok tokens ∧ parse tokens = .ok root := by
  unfold readTemplate
  constructor
  · intro h
    split at h
    · exact nomatch h
    · rename_i tokens hscan
      split at h
      · exact nomatch h
      · rename_i root' hparse
        cases h
        exact ⟨tokens, hscan, hparse⟩
  · rintro ⟨tokens, hscan, hparse⟩
    rw [hscan]
    simp only [hparse]

/-- Rendering a template's tree gives the template's output, or its fault as the error of
    the run. -/
theorem renderNode_node (t : Template) (vars : Vars) :
    renderNode t.node vars = (t.output vars).mapError .run := by
  have hrun : t.node.run vars = t.output vars := (compile_ends t vars).runToEnd_eq _
  rw [renderNode, hrun]
  cases t.output vars with
  | error f => rfl
  | ok output => rfl

section

variable {source : String} {root : Node} {vars : Vars}

/-- What is read is a template's tree. -/
theorem exists_template_of_readTemplate (h : readTemplate source = .ok root) :
    ∃ t : Template, root = t.node := by
  rcases readTemplate_eq_ok_iff.mp h with ⟨tokens, _, hparse⟩
  exact template_of_parse hparse

theorem render_of_readTemplate (h : readTemplate source = .ok root) :
    render source vars = renderNode root vars := by
  rw [render, h]

/-- A source that is read into a template is rendered to the template's output. -/
theorem render_eq_output {t : Template} (h : readTemplate source = .ok t.node) :
    render source vars = (t.output vars).mapError .run := by
  rw [render_of_readTemplate h, renderNode_node]

/-- A source that is read has an output where its template has one. -/
theorem render_eq_ok_iff {t : Template} {text : String} (h : readTemplate source = .ok t.node) :
    render source vars = .ok text ↔ t.output vars = .ok text := by
  rw [render_eq_output h]
  cases t.output vars with
  | error f => exact ⟨nofun, nofun⟩
  | ok output =>
      constructor
      · intro heq
        cases heq
        rfl
      · intro heq
        cases heq
        rfl

/-- A source that is read can only fail with a fault of its template. -/
theorem render_eq_error_iff {t : Template} {e : TemplateError}
    (h : readTemplate source = .ok t.node) :
    render source vars = .error e ↔ ∃ f, e = .run f ∧ t.output vars = .error f := by
  rw [render_eq_output h]
  constructor
  · intro he
    cases houtput : t.output vars with
    | ok output =>
        rw [houtput] at he
        exact nomatch he
    | error f =>
        rw [houtput] at he
        cases he
        exact ⟨f, rfl, rfl⟩
  · rintro ⟨f, rfl, houtput⟩
    rw [houtput]
    rfl

/-- A source without a tag is rendered to itself. -/
theorem render_eq_self (h : ¬ ['[', '%'] <:+: source.toList) : render source vars = .ok source := by
  by_cases hempty : source = ""
  · -- There is no token, and the empty sequence prints nothing.
    have hscan : scan "" = .ok [] := scan_eq_ok_iff.mpr ⟨[], trivial, trivial, rfl, rfl⟩
    have hread : readTemplate "" = .ok (Template.node []) :=
      readTemplate_eq_ok_iff.mpr ⟨[], hscan, rfl⟩
    rw [hempty, render_eq_output hread]
    rfl
  · have hread : readTemplate source = .ok (Template.node [.text source]) :=
      readTemplate_eq_ok_iff.mpr ⟨[.text source], scan_text ⟨hempty, h⟩, rfl⟩
    have houtput : Template.output [.text source] vars = .ok (source ++ "") := rfl
    rw [render_eq_output hread, houtput, String.append_empty]
    rfl

end

end Stencil
