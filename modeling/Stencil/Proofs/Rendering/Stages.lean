import Stencil.Cli.Command
import Stencil.Proofs.Quoting
import Stencil.Proofs.Session.Lines

/-!
# Showing the Stages

Showing the stages of a template adds to the diagnostics and changes nothing else.

A template is rendered in one of two ways. `render` runs all stages and keeps the error of
the first that fails. `renderStaged` runs them one by one, and shows the tokens and the
listing on the way. Both stop at the same stage with the same error, so what the second one
shows can be told without following it: the tokens depend on the scan alone, and the
listing on the scan and the reading. `Stages.report` says so, and `renderStaged_eq` splits
the staged rendering into this report and the plain result.

What holds of a text then holds of a named template that is loaded first, of a call of the
program, and of a line of a session, each by the equation of the one before.

## Main definitions

* `IsLine`: A text has one line feed, at its end.
* `Stages.report`: What is shown of a text.
* `TemplateSource.report`: What is shown of a named template.
* `RenderRequest.plain`: A request without its stages.
* `resultEnding`: What a call ends with for a result alone.

## Theorems

* `Spanned.isLine_line`: A token is shown on one line.
* `renderStaged_eq`: The staged rendering is the plain one, with the report.
* `TemplateSource.renderShown_eq`: The same for a named template.
* `RenderRequest.run_eq`: The same for a call of the program.
* `Session.answer?_of_template`: The same for a line of a session.
* `stages_only_add`: What the stages change, and what they leave.
-/

namespace Stencil

/-- The text has one line feed, and ends with it. -/
def IsLine (s : String) : Prop :=
  ∃ body, '\n' ∉ body.toList ∧ s = body ++ "\n"

/-- What is shown of a text: its tokens where it is scanned, each on a line, and then the
    listing of its code where it is read, both only if they are asked for. -/
def Stages.report (what : Stages) (text : String) : String :=
  let tokens := match scanSpanned text with
    | .ok tokens => if what.tokens then String.join (tokens.map Spanned.line) else ""
    | .error _ => ""
  let listing := match readTemplate text with
    | .ok root => if what.listing then (compile root).listing else ""
    | .error _ => ""
  tokens ++ listing

/-- What is shown of a named template: nothing unless it is loaded. -/
def TemplateSource.report (s : TemplateSource) (name : String) (what : Stages) : String :=
  match s.fetch name with
  | .ok text => what.report text
  | .error _ => ""

/-- The request with no stage to show. -/
def RenderRequest.plain (r : RenderRequest) : RenderRequest :=
  { r with showTokens := false, showListing := false }

theorem Token.not_mem_listed (t : Token) : '\n' ∉ t.listed.toList := by
  cases t with
  | text s | integer s | identifier s =>
      exact Text.not_mem_append (Text.not_mem_append (by decide) (Text.not_mem_quote s)) (by decide)
  | keyword word => cases word <;> decide
  | operator op => cases op <;> decide
  | _ => decide

/-- A token is shown on one line. -/
theorem Spanned.isLine_line (t : Spanned) : IsLine t.line := by
  have hspan : '\n' ∉ t.span.shown.toList :=
    Text.not_mem_append (Text.not_mem_append (Text.not_mem_ofNat _) (by decide))
      (Text.not_mem_ofNat _)
  have hbrackets : '\n' ∉ ("[" ++ t.span.shown ++ "]").toList :=
    Text.not_mem_append (Text.not_mem_append (by decide) hspan) (by decide)
  have hdim : '\n' ∉ (dim ("[" ++ t.span.shown ++ "]")).toList :=
    Text.not_mem_append (Text.not_mem_append (by decide) hbrackets) (by decide)
  exact ⟨_, Text.not_mem_append (Text.not_mem_append hdim (by decide)) t.token.not_mem_listed, rfl⟩

theorem tokenLines_eq_join (tokens : List Spanned) :
    tokenLines tokens = String.join (tokens.map Spanned.line) := by
  rw [tokenLines, String.join, List.foldl_map]

/-- Rendering stage after stage gives what rendering gives, and shows the report on the
    way. -/
theorem renderStaged_eq (what : Stages) (text : String) (vars : Vars) :
    renderStaged what text vars = ⟨what.report text, render text vars⟩ := by
  unfold renderStaged Stages.report render readTemplate scan
  -- One case for each stage that can be the last one.
  cases scanSpanned text with
  | error e => rfl
  | ok tokens =>
      simp only [tokenLines_eq_join]
      cases parse (tokens.map Spanned.token) with
      | error e => simp only [String.append_empty]
      | ok root =>
          have hshown : ∀ shown : String,
              (if what.listing then shown ++ (compile root).listing else shown)
                = shown ++ if what.listing then (compile root).listing else "" := by
            intro shown
            split
            · rfl
            · exact String.append_empty.symm
          simp only [hshown, renderNode]
          cases root.run vars with
          | error f => rfl
          | ok output => rfl

/-- Where no stage is asked for, nothing is shown. -/
theorem Stages.report_nothing (text : String) : Stages.nothing.report text = "" := by
  unfold report
  cases scanSpanned text with
  | error e => cases readTemplate text <;> rfl
  | ok tokens => cases readTemplate text <;> rfl

namespace TemplateSource

variable (s : TemplateSource) (name : String) (vars : Vars) (what : Stages)

theorem report_nothing : s.report name .nothing = "" := by
  unfold report
  split
  · exact Stages.report_nothing _
  · rfl

theorem renderText_eq (text : String) :
    renderText text vars = (Stencil.render text vars).mapError .template := by
  unfold renderText
  cases Stencil.render text vars with
  | error e => rfl
  | ok output => rfl

/-- A named template is rendered to the same result whichever of its stages are shown. -/
theorem renderShown_eq :
    s.renderShown name vars what = ⟨s.report name what, s.render name vars⟩ := by
  unfold renderShown
  split
  · unfold TemplateSource.report TemplateSource.render
    cases s.fetch name with
    | error e => rfl
    | ok text => simp only [renderStaged_eq, renderText_eq]
  · rename_i hwhat
    have hnothing : what = .nothing := by
      rcases what with ⟨tokens, listing⟩
      cases tokens with
      | true => exact absurd rfl hwhat
      | false =>
          cases listing with
          | true => exact absurd rfl hwhat
          | false => rfl
    rw [hnothing, report_nothing]

end TemplateSource

/-- What a call prints for the result of a template, with nothing shown of its stages. -/
def resultEnding (name : String) : Except EngineError String → Ending
  | .ok output => ⟨0, output, ""⟩
  | .error e => ⟨1, "", failureText name e⟩

/-- A call that renders a template ends with its result. The report on its stages stands in
    front of all other diagnostics. -/
theorem RenderRequest.run_eq (r : RenderRequest) (read : String → ReadResult) (name : String) :
    let source := r.searchPath.source read
    let ending := resultEnding name (source.render name r.vars)
    r.run read name = { ending with
      printed := ⟨ending.printed.out, source.report name r.shown ++ ending.printed.err⟩ } := by
  unfold run
  simp only [TemplateSource.renderShown_eq]
  cases (r.searchPath.source read).render name r.vars with
  | error e => rfl
  | ok output => simp only [resultEnding, String.append_empty]

/-- A line that is a template is answered with its result, and with the report on its
    stages. -/
theorem Session.answer?_of_template {s : Session} {line : String} (h : ¬ IsCommand line) :
    s.answer? line =
      some (⟨resultText line (render line s.vars), s.stages.report line⟩, s) := by
  rw [answer?, read_eq_template_iff.mpr ⟨h, rfl⟩]
  simp only [printTemplate, renderStaged_eq]

/-- The stages of a template that are shown add to the diagnostics of a call, in front of
    them, and change nothing else: neither its code nor its output. The tokens are shown a
    line for each, where the template is loaded and scanned, then the listing, where it is
    parsed too. The same holds of a line of a session that is a template: its result is told
    alike whichever stages are shown. -/
theorem stages_only_add :
    (∀ (r : RenderRequest) (read : String → ReadResult) (name : String),
      let source := r.searchPath.source read
      let plain := r.plain.run read name
      plain = resultEnding name (source.render name r.vars) ∧
        r.run read name = ⟨plain.code, plain.printed.out,
          source.report name r.shown ++ plain.printed.err⟩) ∧
      (∀ t : Spanned, IsLine t.line) ∧
      ∀ (what : Stages) (vars : Vars) (line : String), ¬ IsCommand line →
        (Session.mk what vars).answer? line =
          some (⟨Session.resultText line (render line vars), what.report line⟩, ⟨what, vars⟩) := by
  refine ⟨fun r read name => ?_, Spanned.isLine_line, fun what vars line hline => ?_⟩
  · intro source plain
    have hplain : plain = resultEnding name (source.render name r.vars) := by
      have hrun := r.plain.run_eq read name
      have hnothing : source.report name r.plain.shown = "" := source.report_nothing name
      simp only [show r.plain.searchPath.source read = source from rfl, hnothing,
        String.empty_append] at hrun
      exact hrun
    refine ⟨hplain, ?_⟩
    rw [hplain]
    exact r.run_eq read name
  · exact Session.answer?_of_template hline

/-- The tokens are shown although the tag is not closed, and no listing is. -/
theorem stages_only_add_unclosed :
    ¬ IsCommand "[% 1" ∧
      (Session.mk ⟨true, true⟩ .empty).answer? "[% 1" =
        some (⟨Session.resultText "[% 1" (render "[% 1" .empty),
          "\x1b[2m[0..2]\x1b[0m Open\n\x1b[2m[3..4]\x1b[0m Integer(\x221\x22)\n"⟩,
          ⟨⟨true, true⟩, .empty⟩) := by
  have hline : ¬ IsCommand "[% 1" := by decide +kernel
  have hreport : (Stages.mk true true).report "[% 1" =
      "\x1b[2m[0..2]\x1b[0m Open\n\x1b[2m[3..4]\x1b[0m Integer(\x221\x22)\n" := by
    decide +kernel
  exact ⟨hline, hreport ▸ stages_only_add.2.2 ⟨true, true⟩ .empty "[% 1" hline⟩

end Stencil
