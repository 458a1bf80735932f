import Stencil.Proofs.Code.Parts
import Stencil.Proofs.Grammar.Concatenation
import Stencil.Proofs.Rendering
import Stencil.Proofs.Template.Relocation

/-!
# Rendering Sources One Behind the Other

The output of two sources put together is the output of both put together.

Two sources that are templates are one template behind the other, unless a `[` at the end
of the first and a `%` at the start of the second make the opening of a tag. Each stage
starts over at the seam: the scanner is outside of the tags, the reader has no open block,
and the stack and the scopes of the machine are empty. What the first source leaves is
only the number of its instructions, which a fault of the second one is moved by. Where
the sources meet in literal text, they have one instruction of theirs in common.

## Main definitions

* `endsInText`, `startsInText`: The source has literal text at an end.
* `commonInstructions`: How many instructions two sources have in common at their seam.
* `TemplateError.relocate`: An error with more instructions in front.
* `followedBy`: A result with another one behind it.

## Theorems

* `followedBy_mapError`: Outputs are put together as the results of sources are.
* `seam_cases`: A text meets a text, or it does not.
* `readTemplate_append`: Sources put together are read, with one result behind the other.
* `render_append`: The output of sources put together is that of both.
-/

namespace Stencil

/-- The last token of the source is literal text. -/
def endsInText (source : String) : Bool :=
  match scan source with
  | .ok tokens => tokens.getLast?.any Token.isText
  | .error _ => false

/-- The first token of the source is literal text. -/
def startsInText (source : String) : Bool :=
  match scan source with
  | .ok tokens => tokens.head?.any Token.isText
  | .error _ => false

/-- The number of instructions that two sources have in common where they meet: the one
    that prints literal text at the end of the first and at the start of the second. -/
def commonInstructions (a b : String) : Nat :=
  if endsInText a && startsInText b then 1 else 0

/-- The error with `d` more instructions in front. -/
def TemplateError.relocate (d : Nat) : TemplateError → TemplateError
  | .run f => .run (f.relocate d)
  | e => e

/-- The result of a source with the result of another one behind it, whose instructions
    come behind `d` others. -/
def followedBy (first : Except TemplateError String) (d : Nat)
    (second : Except TemplateError String) : Except TemplateError String :=
  first >>= fun x => second.mapError (TemplateError.relocate d) >>= fun y => .ok (x ++ y)

/-- The outputs of templates are put together as the results of their sources are. -/
theorem followedBy_mapError (d : Nat) (first second : Except Fault String) :
    followedBy (first.mapError .run) d (second.mapError .run) =
      (first >>= fun x => second.mapError (Fault.relocate d) >>= fun y =>
        .ok (x ++ y)).mapError .run := by
  cases first with
  | error f => rfl
  | ok x =>
      cases second with
      | error f => rfl
      | ok y => rfl

/-- Where some tokens meet others, a text meets a text, or it does not. -/
theorem seam_cases (ts us : List Token) :
    (∃ front s s' back, ts = front ++ [.text s] ∧ us = .text s' :: back) ∨
      ∀ t ∈ ts.getLast?, ∀ u ∈ us.head?, ¬ (t.isText ∧ u.isText) := by
  by_cases hmeet : ∃ t ∈ ts.getLast?, ∃ u ∈ us.head?, t.isText ∧ u.isText
  · left
    rcases hmeet with ⟨t, ht, u, hu, htext, htext'⟩
    rcases List.getLast?_eq_some_iff.mp ht with ⟨front, rfl⟩
    rcases List.head?_eq_some_iff.mp hu with ⟨back, rfl⟩
    cases t with
    | text s =>
        cases u with
        | text s' => exact ⟨front, s, s', back, rfl, rfl⟩
        | _ => exact nomatch htext'
    | _ => exact nomatch htext
  · exact .inr fun t ht u hu htexts => hmeet ⟨t, ht, u, hu, htexts⟩

section

variable {a b : String} {ra rb : Node} {ts us : List Token}

theorem commonInstructions_of_text {s s' : String} (ha : scan a = .ok (ts ++ [.text s]))
    (hb : scan b = .ok (.text s' :: us)) : commonInstructions a b = 1 := by
  have hends : endsInText a = true := by
    rw [endsInText, ha]
    simp only [List.getLast?_concat, Option.any_some, Token.isText]
  have hstarts : startsInText b = true := by
    rw [startsInText, hb]
    rfl
  rw [commonInstructions, hends, hstarts]
  rfl

theorem commonInstructions_of_apart (ha : scan a = .ok ts) (hb : scan b = .ok us)
    (hapart : ∀ t ∈ ts.getLast?, ∀ u ∈ us.head?, ¬ (t.isText ∧ u.isText)) :
    commonInstructions a b = 0 := by
  rw [commonInstructions, endsInText, startsInText, ha, hb]
  refine if_neg fun hboth => ?_
  rw [Bool.and_eq_true, Option.any_eq_true, Option.any_eq_true] at hboth
  rcases hboth with ⟨⟨t, ht, htext⟩, u, hu, htext'⟩
  exact hapart t ht u hu ⟨htext, htext'⟩

/-- Sources one behind the other are read, and the result of the second one comes behind
    that of the first. -/
theorem readTemplate_append (ha : readTemplate a = .ok ra) (hb : readTemplate b = .ok rb)
    (hseam : ¬ (a.toList.getLast? = some '[' ∧ b.toList.head? = some '%')) :
    ∃ root d, readTemplate (a ++ b) = .ok root ∧ d + commonInstructions a b = ra.codeSize ∧
      ∀ vars, renderNode root vars = followedBy (renderNode ra vars) d (renderNode rb vars) := by
  rcases readTemplate_eq_ok_iff.mp ha with ⟨ts, hscan, hparse⟩
  rcases readTemplate_eq_ok_iff.mp hb with ⟨us, hscan', hparse'⟩
  rcases seam_cases ts us with ⟨front, s, s', back, rfl, rfl⟩ | hapart
  · -- The two texts become one statement, and its instruction counts for both.
    rcases parse_append_text hparse hparse' with ⟨t, u, rfl, rfl, hjoined⟩
    have hread : readTemplate (a ++ b) = .ok (Template.node (t ++ .text (s ++ s') :: u)) :=
      readTemplate_eq_ok_iff.mpr ⟨_, scan_append_text hscan hscan' hseam, hjoined⟩
    refine ⟨_, t.node.codeSize, hread, ?_, fun vars => ?_⟩
    · rw [commonInstructions_of_text hscan hscan', Template.codeSize_node_append]
      rfl
    · rw [renderNode_node, renderNode_node, renderNode_node, output_append_text,
        followedBy_mapError]
  · rcases parse_append hparse hparse' with ⟨t, u, rfl, rfl, hjoined⟩
    have hend : Mode.literal.afterAll ts = .literal :=
      afterAll_of_template (template_of_readTree hparse)
    have hread : readTemplate (a ++ b) = .ok (Template.node (t ++ u)) :=
      readTemplate_eq_ok_iff.mpr ⟨_, scan_append hscan hscan' hend hapart, hjoined⟩
    refine ⟨_, t.node.codeSize, hread, ?_, fun vars => ?_⟩
    · rw [commonInstructions_of_apart hscan hscan' hapart, Nat.add_zero]
    · rw [renderNode_node, renderNode_node, renderNode_node, output_append, followedBy_mapError]

end

/-- Sources that are templates are a template one behind the other, unless a tag opens
    where they meet. If both are rendered, their outputs are put together. If the first one
    fails, so do both with its error, and if the second one fails, both fail with the same
    kind of fault, at an instruction that is moved by those of the first one in front of its
    stop, without the one that they have in common. In particular a source without a tag
    is rendered to itself. -/
theorem render_append :
    (∀ a b ra rb, readTemplate a = .ok ra → readTemplate b = .ok rb →
      ¬ (a.toList.getLast? = some '[' ∧ b.toList.head? = some '%') →
      (∃ root, readTemplate (a ++ b) = .ok root) ∧
        ∀ vars,
          (∀ x y, render a vars = .ok x → render b vars = .ok y →
            render (a ++ b) vars = .ok (x ++ y)) ∧
          (∀ e, render a vars = .error e → render (a ++ b) vars = .error e) ∧
          (∀ x e, render a vars = .ok x → render b vars = .error e →
            ∃ f pc, e = .run f ∧ pc + commonInstructions a b + 1 = f.pc + (compile ra).size ∧
              render (a ++ b) vars = .error (.run ⟨pc, f.kind⟩))) ∧
      ∀ source vars, ¬ ['[', '%'] <:+: source.toList → render source vars = .ok source := by
  refine ⟨fun a b ra rb ha hb hseam => ?_, fun source vars => render_eq_self⟩
  rcases readTemplate_append ha hb hseam with ⟨root, d, hread, hsize, houtcome⟩
  rcases exists_template_of_readTemplate hb with ⟨u, rfl⟩
  refine ⟨⟨root, hread⟩, fun vars => ?_⟩
  have hrender : render (a ++ b) vars
      = followedBy (render a vars) d (render b vars) := by
    rw [render_of_readTemplate hread, render_of_readTemplate ha, render_of_readTemplate hb,
      houtcome]
  rw [hrender]
  refine ⟨fun x y hx hy => ?_, fun e he => ?_, fun x e hx he => ?_⟩
  · rw [hx, hy]
    rfl
  · rw [he]
    rfl
  · -- A template that is read can only fail in its run.
    rw [hx, he]
    rw [render_eq_output hb] at he
    cases houtput : u.output vars with
    | ok y =>
        rw [houtput] at he
        exact nomatch he
    | error f =>
        rw [houtput] at he
        cases he
        refine ⟨f, d + f.pc, rfl, ?_, rfl⟩
        rw [compile_size]
        omega

/-- A fault of the second source, where literal text meets literal text. -/
theorem render_append_fault :
    render ("x[%1%]y[" ++ "z[%1/0%]") .empty = .error (.run ⟨6, .arithmetic .divisionByZero⟩) := by
  let t : Template := [.text "x", .print (.integer 1), .text "y["]
  let u : Template := [.text "z", .print (.binary .div (.integer 1) (.integer 0))]
  have ha : readTemplate "x[%1%]y[" = .ok t.node :=
    readTemplate_eq_ok_iff.mpr ⟨[.text "x", .tagOpen, .integer "1", .tagClose, .text "y["],
      by decide +kernel, rfl⟩
  have hb : readTemplate "z[%1/0%]" = .ok u.node :=
    readTemplate_eq_ok_iff.mpr ⟨[.text "z", .tagOpen, .integer "1", .operator .div, .integer "0",
      .tagClose], by decide +kernel, rfl⟩
  have hx : render "x[%1%]y[" .empty = .ok "x1y[" := by
    rw [render_eq_output ha]
    decide +kernel
  have he : render "z[%1/0%]" .empty = .error (.run ⟨3, .arithmetic .divisionByZero⟩) := by
    rw [render_eq_output hb]
    decide +kernel
  rcases ((render_append.1 _ _ _ _ ha hb (by decide +kernel)).2 .empty).2.2 _ _ hx he with
    ⟨f, pc, hf, hpc, hall⟩
  cases hf
  have hcommon : commonInstructions "x[%1%]y[" "z[%1/0%]" = 1 := by decide +kernel
  have hsize : (compile t.node).size = 5 := compile_size t.node
  rw [hcommon, hsize] at hpc
  have hpc : pc = 6 := by
    simp only at hpc
    omega
  rw [hall, hpc]

end Stencil
