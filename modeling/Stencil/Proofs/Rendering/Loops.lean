import Stencil.Proofs.Grammar.Concatenation
import Stencil.Proofs.Rendering
import Stencil.Proofs.Template.Relocation
import Stencil.Proofs.Vars

/-!
# Loops Around a Source

A loop is its body rendered once for each item.

A source that is a template may stand inside a loop. To the body there is no difference
between a name that a loop around it binds and a variable of that name: either way the name
stands for the item wherever no loop inside the body binds it again. So the output of the
loop is made of the outputs that the body has by itself, with the name as one more variable,
and where the body fails for an item, the loop fails in the same way, only with the two
instructions in front of the body counted in.

## Main definitions

* `loopSource`: A source inside a loop over the items of a name.

## Theorems

* `ofVars_insert`: One more variable binds its name as a loop does.
* `forItems_ok`, `forItems_error`: The outputs of a body, and its first fault.
* `scan_loopSource`, `parse_loop`: A loop around a template is a template.
* `output_loop`: What the loop prints in the terms of its body.
* `render_loop`: A loop is its body rendered once for each item.
-/

namespace Stencil

open Grammar

/-- The source inside a loop that binds a name to the items of the value of another, or of
    the same, name. -/
def loopSource (name iterable body : String) : String :=
  "[% for " ++ name ++ " in " ++ iterable ++ " %]" ++ body ++ "[% end %]"

/-- One more variable binds its name as a loop does. -/
theorem ofVars_insert (vars : Vars) (name : String) (item : Value) :
    Environment.ofVars (vars.insert name item) = (Environment.ofVars vars).bind name item := by
  funext other
  rw [Environment.ofVars, Environment.bind, Vars.get?_insert]
  by_cases hname : other = name
  · rw [if_pos hname, if_pos hname]
    rfl
  · rw [if_neg hname, if_neg hname]
    rfl

section

variable {body : Value → Except Fault String}

/-- Where the body never fails, its outputs are put together. -/
theorem forItems_ok {items : List Value} {outputs : List String}
    (h : List.Forall₂ (fun item text => body item = .ok text) items outputs) :
    forItems body items = .ok (String.join outputs) := by
  induction h with
  | nil => rfl
  | cons hitem _ ih =>
      rw [forItems, hitem, ih, String.join_cons]
      rfl

/-- The first item for which the body fails decides the fault. -/
theorem forItems_error {front back : List Value} {item : Value} {f : Fault}
    (hfront : ∀ u ∈ front, ∃ text, body u = .ok text) (h : body item = .error f) :
    forItems body (front ++ item :: back) = .error f := by
  induction front with
  | nil =>
      rw [List.nil_append, forItems, h]
      rfl
  | cons u front ih =>
      rcases hfront u List.mem_cons_self with ⟨text, hu⟩
      rw [List.cons_append, forItems, hu, ih fun w hw => hfront w (List.mem_cons_of_mem _ hw)]
      rfl

end

section

variable {name iterable : String} {ts : List Token} {t : Template}

/-- The tokens of the tag that opens a loop over the value of a name. -/
def loopTag (name iterable : String) : List Token :=
  [.tagOpen, .keyword .forWord, .identifier name, .keyword .inWord, .identifier iterable, .tagClose]

/-- The opening tag of a loop is scanned into its tokens. -/
theorem scan_loopTag (hname : (Token.identifier name).WellFormed)
    (hiterable : (Token.identifier iterable).WellFormed) :
    scan ("[% for " ++ name ++ " in " ++ iterable ++ " %]") = .ok (loopTag name iterable) := by
  refine scan_eq_ok_iff.mpr ⟨[(.tagOpen, " "), (.keyword .forWord, " "), (.identifier name, " "),
    (.keyword .inWord, " "), (.identifier iterable, " "), (.tagClose, "")], ?_, ?_, ?_, rfl⟩
  · -- None of the tokens is a text.
    have hapart : ∀ {t : Token} {us : List Token}, t.isText = false →
        ∀ u ∈ us.head?, ¬ (t.isText ∧ u.isText) :=
      fun ht _ _ h => Bool.eq_false_iff.mp ht h.1
    exact ⟨rfl, trivial, hapart rfl, rfl, trivial, hapart rfl, rfl, hname, hapart rfl, rfl, trivial,
      hapart rfl, rfl, hiterable, hapart rfl, rfl, trivial, hapart rfl, trivial⟩
  · -- A blank stands behind every token inside the tag.
    have hblank : ∀ c ∈ " ".toList, c ∈ blanks := List.forall_mem_singleton.mpr (by decide)
    have hgap : " " ≠ "" := by decide
    exact ⟨hblank, nofun, fun _ _ _ => hgap, hblank, nofun, fun _ _ _ => hgap, hblank, nofun,
      fun _ _ _ => hgap, hblank, nofun, fun _ _ _ => hgap, hblank, nofun, fun _ _ _ => hgap, nofun,
      fun _ => rfl, nofun, trivial⟩
  · have hfor : "[% for " = "[%" ++ " " ++ "for" ++ " " := by decide
    have hin : " in " = " " ++ "in" ++ " " := by decide
    have hclose : " %]" = " " ++ "%]" := by decide
    rw [hfor, hin, hclose]
    simp only [write, Token.written, Token.shown, Keyword.spelling, List.map_cons, List.map_nil,
      String.join_cons, String.join_nil, String.append_assoc, String.append_empty]

/-- A template inside a loop is scanned into its tokens between those of the loop. -/
theorem scan_loopSource {body : String} (hname : (Token.identifier name).WellFormed)
    (hiterable : (Token.identifier iterable).WellFormed) (hbody : scan body = .ok ts)
    (hend : Mode.literal.afterAll ts = .literal) :
    scan (loopSource name iterable body) = .ok (loopTag name iterable ++ ts ++ endTag) := by
  have hclose : scan "[% end %]" = .ok endTag := by decide +kernel
  -- Neither tag is a text, so no text of the body meets another one.
  have hopened := scan_append (scan_loopTag hname hiterable) hbody rfl fun u hu _ _ htexts => by
    cases hu
    exact nomatch htexts.1
  refine scan_append hopened hclose ?_ fun _ _ u hu htexts => ?_
  · rw [Mode.afterAll_append]
    exact hend
  · cases hu
    exact nomatch htexts.2

/-- The tokens of a template inside a loop are parsed into the loop, if the limit admits one
    more block around it. -/
theorem parse_loop (h : parse ts = .ok t.node) (hnesting : t.node.nesting < maxNesting) :
    parse (loopTag name iterable ++ ts ++ endTag) =
      .ok (Template.node [.forEach name (.lookup iterable) t]) := by
  rcases parse_eq_ok_iff_sequence.mp h with ⟨ns, hns, hroot, _⟩
  have htag := @Tag.forEach _ _ name _ _ (.one (.one (@Primary.lookup iterable))) hns
  have hall : Sequence (loopTag name iterable ++ ts ++ endTag)
      [.forEach name (.lookup iterable) t.node] := by
    rw [hroot, List.append_assoc]
    exact .tag .nil htag
  refine parse_eq_ok_iff_sequence.mpr ⟨_, hall, rfl, ?_⟩
  simp only [Node.nestingAll, Node.nesting]
  omega

/-- A loop prints what its body prints for each item, with the name as one more variable. A
    fault of the body comes behind the lookup and the beginning of the loop. -/
theorem output_loop {vars : Vars} {items : List Value}
    (hitems : vars.get? iterable = some (.array items)) :
    Template.output [.forEach name (.lookup iterable) t] vars =
      (forItems (fun item => t.output (vars.insert name item)) items).mapError
        (Fault.relocate 2) := by
  have hbody : ∀ item, Statement.performAll ((Environment.ofVars vars).bind name item) 2 t
      = (t.output (vars.insert name item)).mapError (Fault.relocate 2) := by
    intro item
    rw [Template.output, ofVars_insert]
    exact performAll_relocate t _ 0
  have hvalue : Environment.ofVars vars iterable = .array items := by
    rw [Environment.ofVars, hitems]
    rfl
  have hloop : (Statement.forEach name (.lookup iterable) t).perform (.ofVars vars) 0
      = (forItems (fun item => t.output (vars.insert name item)) items).mapError
          (Fault.relocate 2) := by
    rw [← forItems_mapError hbody, Statement.perform, Expression.evaluate, hvalue]
    rfl
  rw [Template.output, Statement.performAll, hloop]
  -- No statement is behind the loop, so nothing comes behind its text.
  cases forItems (fun item => t.output (vars.insert name item)) items with
  | error f => rfl
  | ok text => exact congrArg Except.ok String.append_empty

end

/-- A source that is a template of less than the greatest nesting may stand in a loop over a
    variable that is an array. If the source is rendered for each item, as the value of a
    variable with the loop's name, the loop is rendered to these outputs one behind the
    other. Otherwise it fails with the kind of fault of the first item for which the source
    fails, two instructions further on. -/
theorem render_loop {source name iterable : String} {root : Node} {vars : Vars}
    {items : List Value} (h : readTemplate source = .ok root) (hnesting : root.nesting ≤ 255)
    (hname : (Token.identifier name).WellFormed)
    (hiterable : (Token.identifier iterable).WellFormed)
    (hitems : vars.get? iterable = some (.array items)) :
    (∀ outputs : List String,
      List.Forall₂ (fun item text => render source (vars.insert name item) = .ok text)
          items outputs →
      render (loopSource name iterable source) vars = .ok (String.join outputs)) ∧
    ∀ front item back e, items = front ++ item :: back →
      (∀ u ∈ front, ∃ text, render source (vars.insert name u) = .ok text) →
      render source (vars.insert name item) = .error e →
      ∃ f, e = .run f ∧
        render (loopSource name iterable source) vars = .error (.run ⟨2 + f.pc, f.kind⟩) := by
  rcases readTemplate_eq_ok_iff.mp h with ⟨ts, hscan, hparse⟩
  rcases template_of_parse hparse with ⟨t, rfl⟩
  have hend : Mode.literal.afterAll ts = .literal :=
    afterAll_of_template (template_of_readTree hparse)
  have hread : readTemplate (loopSource name iterable source)
      = .ok (Template.node [.forEach name (.lookup iterable) t]) :=
    readTemplate_eq_ok_iff.mpr ⟨_, scan_loopSource hname hiterable hscan hend,
      parse_loop hparse (Nat.lt_succ_of_le hnesting)⟩
  rw [render_eq_output hread, output_loop hitems]
  refine ⟨fun outputs houtputs => ?_, fun front item back e hsplit hfront he => ?_⟩
  · rw [forItems_ok (houtputs.imp fun _ _ htext => (render_eq_ok_iff h).mp htext)]
    rfl
  · rcases (render_eq_error_iff h).mp he with ⟨f, rfl, hf⟩
    have hdone : ∀ u ∈ front, ∃ text, t.output (vars.insert name u) = .ok text := by
      intro u hu
      rcases hfront u hu with ⟨text, htext⟩
      exact ⟨text, (render_eq_ok_iff h).mp htext⟩
    refine ⟨f, rfl, ?_⟩
    rw [hsplit, forItems_error hdone hf]
    rfl

/-- A loop over the name that it binds, whose body ends in a bracket, with an output for each
    item or a fault behind the first output. -/
theorem render_loop_quotients :
    render (loopSource "x" "x" "[% 6/x %][")
        (Vars.empty.insert "x" (.array [.integer 2, .integer 3])) = .ok "3[2[" ∧
      render (loopSource "x" "x" "[% 6/x %][")
        (Vars.empty.insert "x" (.array [.integer 2, .integer 0])) =
        .error (.run ⟨4, .arithmetic .divisionByZero⟩) := by
  have hread : readTemplate "[% 6/x %][" =
      .ok (Template.node [.print (.binary .div (.integer 6) (.lookup "x")), .text "["]) :=
    readTemplate_eq_ok_iff.mpr ⟨[.tagOpen, .integer "6", .operator .div, .identifier "x", .tagClose,
      .text "["], by decide +kernel, rfl⟩
  have hname : (Token.identifier "x").WellFormed :=
    ⟨⟨'x', [], rfl, by decide, nofun⟩, fun k => by cases k <;> decide⟩
  have hnesting : (Template.node
      [.print (.binary .div (.integer 6) (.lookup "x")), .text "["]).nesting ≤ 255 := by
    decide +kernel
  have hpositive : (Vars.empty.insert "x" (.array [.integer 2, .integer 3])).get? "x"
      = some (.array [.integer 2, .integer 3]) := rfl
  have hzero : (Vars.empty.insert "x" (.array [.integer 2, .integer 0])).get? "x"
      = some (.array [.integer 2, .integer 0]) := rfl
  constructor
  · refine (render_loop hread hnesting hname hname hpositive).1 ["3[", "2["]
      (.cons ?_ (.cons ?_ .nil))
    · rw [render_eq_output hread]
      decide +kernel
    · rw [render_eq_output hread]
      decide +kernel
  · have hfirst : ∀ u ∈ [Value.integer 2], ∃ text, render "[% 6/x %]["
        ((Vars.empty.insert "x" (.array [.integer 2, .integer 0])).insert "x" u) = .ok text := by
      intro u hu
      rw [List.mem_singleton.mp hu]
      refine ⟨"3[", ?_⟩
      rw [render_eq_output hread]
      decide +kernel
    have hsecond : render "[% 6/x %]["
        ((Vars.empty.insert "x" (.array [.integer 2, .integer 0])).insert "x" (.integer 0))
        = .error (.run ⟨2, .arithmetic .divisionByZero⟩) := by
      rw [render_eq_output hread]
      decide +kernel
    rcases (render_loop hread hnesting hname hname hzero).2 _ _ [] _ rfl hfirst hsecond with
      ⟨f, hf, hall⟩
    cases hf
    exact hall

end Stencil
