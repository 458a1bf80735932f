import Stencil.Proofs.Grammar.Recognition
import Stencil.Proofs.Grammar.Trees
import Stencil.Proofs.Tiling.Layouts

/-!
# Templates One Behind the Other

The tokens of two templates put together are the tokens of a template, with the statements
of both.

A template has all its blocks closed, so another may follow it, and the depth of blocks
and arrays starts over at zero. The grammar gives statements with the last one outermost.
To put templates together where a text meets a text, the text has to be taken off the end
of the first template, and off the front of the second one, which is the innermost of its
derivation.

All tags of a template are closed as well: a source that is a template ends outside of the
tags, and the next one is scanned as if it stood alone.

## Theorems

* `afterAll_of_template`: A template ends outside of the tags.
* `sequence_append`: Statements one behind the other are statements in order.
* `sequence_concat_text`, `sequence_cons_text`: A text at an end of a template is a
  statement by itself.
* `parse_append`, `parse_append_text`: Templates one behind the other are parsed into the
  statements of both.
-/

namespace Stencil

open Grammar

section

variable {ts us front back : List Token} {ns ms : List Node} {n : Node} {s : String}

/-- A tag begins with its opening. -/
theorem Grammar.Tag.head (h : Tag ts n) : ∃ us, ts = .tagOpen :: us := by
  cases h with
  | print _ => exact ⟨_, rfl⟩
  | ifThen _ _ => exact ⟨_, rfl⟩
  | forEach _ _ => exact ⟨_, rfl⟩

/-- A tag and a whole block end with the end of a tag. -/
theorem Grammar.Tag.last (h : Tag ts n) : ∃ us, ts = us ++ [.tagClose] := by
  cases h with
  | @print ts _ _ => exact ⟨.tagOpen :: ts, rfl⟩
  | @ifThen ts us _ _ _ _ =>
      refine ⟨.tagOpen :: .keyword .ifWord ::
        (ts ++ .tagClose :: (us ++ [.tagOpen, .keyword .endWord])), ?_⟩
      simp only [endTag, List.cons_append, List.append_assoc, List.nil_append]
  | @forEach ts us name _ _ _ _ =>
      refine ⟨.tagOpen :: .keyword .forWord :: .identifier name :: .keyword .inWord ::
        (ts ++ .tagClose :: (us ++ [.tagOpen, .keyword .endWord])), ?_⟩
      simp only [endTag, List.cons_append, List.append_assoc, List.nil_append]

/-- Statements that start outside of the tags end there. -/
theorem afterAll_of_sequence : {ts : List Token} → {ns : List Node} → Sequence ts ns →
    ∀ m : Mode, m = .literal → m.afterAll ts = .literal
  | _, _, .nil, _, hm => hm
  | _, _, .text hts, m, hm => by
      rw [Mode.afterAll_append, afterAll_of_sequence hts m hm]
      rfl
  | _, _, .tag _ hn, m, _ => by
      rcases hn.last with ⟨us, rfl⟩
      rw [Mode.afterAll_append, Mode.afterAll_append]
      rfl

theorem afterAll_of_template {root : Node} (h : Grammar.Template ts root) :
    Mode.literal.afterAll ts = .literal := by
  rcases h with ⟨ns, hns, _⟩
  exact afterAll_of_sequence hns .literal rfl

/-- Statements behind others are statements in order. -/
theorem sequence_append : {us : List Token} → {ms : List Node} → Sequence us ms →
    ∀ {ts : List Token} {ns : List Node}, Sequence ts ns → Sequence (ts ++ us) (ns ++ ms)
  | _, _, .nil, _, _, h => by
      rw [List.append_nil, List.append_nil]
      exact h
  | _, _, .text hus, _, _, h => by
      rw [← List.append_assoc, ← List.append_assoc]
      exact .text (sequence_append hus h)
  | _, _, .tag hus hn, _, _, h => by
      rw [← List.append_assoc, ← List.append_assoc]
      exact .tag (sequence_append hus h) hn

theorem eq_nil_of_sequence (h : Sequence ts ns) (hts : ts = []) : ns = [] := by
  cases h with
  | nil => rfl
  | text _ => exact absurd hts (List.append_ne_nil_of_right_ne_nil _ (List.cons_ne_nil _ _))
  | tag _ hn =>
      rcases hn.head with ⟨us, rfl⟩
      exact absurd hts (List.append_ne_nil_of_right_ne_nil _ (List.cons_ne_nil _ _))

/-- A text at the end is the last statement. -/
theorem sequence_concat_text (h : Sequence ts ns) (hts : ts = front ++ [.text s]) :
    ∃ ms, ns = ms ++ [.text s] ∧ Sequence front ms := by
  cases h with
  | nil => exact absurd hts.symm (List.append_ne_nil_of_right_ne_nil _ (List.cons_ne_nil _ _))
  | text hfront =>
      rcases List.append_inj' hts rfl with ⟨rfl, hlast⟩
      cases hlast
      exact ⟨_, rfl, hfront⟩
  | tag _ hn =>
      -- A tag ends with another token.
      rcases hn.last with ⟨us, rfl⟩
      rw [← List.append_assoc] at hts
      exact nomatch (List.append_inj' hts rfl).2

/-- A text at the front is the first statement. -/
theorem sequence_cons_text : {ts : List Token} → {ns : List Node} → Sequence ts ns →
    ∀ back, ts = .text s :: back → ∃ ms, ns = .text s :: ms ∧ Sequence back ms
  | _, _, .nil, _, hts => nomatch hts
  | _, _, @Sequence.text front _ _ hfront, back, hts => by
      have ih := sequence_cons_text hfront
      cases front with
      | nil =>
          cases hts
          rw [eq_nil_of_sequence hfront rfl]
          exact ⟨[], rfl, .nil⟩
      | cons t front =>
          cases hts
          rcases ih front rfl with ⟨ms, rfl, hms⟩
          exact ⟨_, rfl, .text hms⟩
  | _, _, @Sequence.tag front us _ _ hfront hn, back, hts => by
      have ih := sequence_cons_text hfront
      cases front with
      | nil =>
          -- A tag starts with another token.
          rcases hn.head with ⟨us, rfl⟩
          exact nomatch hts
      | cons t front =>
          cases hts
          rcases ih front rfl with ⟨ms, rfl, hms⟩
          exact ⟨_, rfl, .tag hms hn⟩

end

theorem Node.nestingAll_append (ns ms : List Node) :
    Node.nestingAll (ns ++ ms) = max (Node.nestingAll ns) (Node.nestingAll ms) := by
  induction ns with
  | nil => rw [List.nil_append, nestingAll, Nat.zero_max]
  | cons n ns ih => rw [List.cons_append, nestingAll, nestingAll, ih, Nat.max_assoc]

/-- What is parsed are the statements of a sequence whose nesting is within the limit. -/
theorem parse_eq_ok_iff_sequence {ts : List Token} {root : Node} :
    parse ts = .ok root ↔
      ∃ ns, Sequence ts ns ∧ root = .sequence ns ∧ Node.nestingAll ns ≤ maxNesting := by
  rw [parse, readTree_eq_ok_iff]
  constructor
  · rintro ⟨⟨ns, hns, rfl⟩, hfits⟩
    exact ⟨ns, hns, rfl, hfits maxNesting rfl⟩
  · rintro ⟨ns, hns, rfl, hnesting⟩
    refine ⟨⟨ns, hns, rfl⟩, fun m hm => ?_⟩
    cases hm
    exact hnesting

section

variable {ts us : List Token} {root root' : Node} {s s' : String}

/-- Templates one behind the other are parsed into the statements of both. -/
theorem parse_append (ha : parse ts = .ok root) (hb : parse us = .ok root') :
    ∃ t u : Template, root = t.node ∧ root' = u.node ∧
      parse (ts ++ us) = .ok (Template.node (t ++ u)) := by
  rcases parse_eq_ok_iff_sequence.mp ha with ⟨ns, hns, rfl, hnesting⟩
  rcases parse_eq_ok_iff_sequence.mp hb with ⟨ms, hms, rfl, hnesting'⟩
  rcases statements_of_sequence hns with ⟨t, rfl⟩
  rcases statements_of_sequence hms with ⟨u, rfl⟩
  refine ⟨t, u, rfl, rfl, parse_eq_ok_iff_sequence.mpr ⟨_, sequence_append hms hns, ?_, ?_⟩⟩
  · rw [Template.node, Statement.nodes_append]
  · rw [Node.nestingAll_append]
    exact Nat.max_le.mpr ⟨hnesting, hnesting'⟩

/-- Where a text meets a text, the one in their place is one statement. -/
theorem parse_append_text (ha : parse (ts ++ [.text s]) = .ok root)
    (hb : parse (.text s' :: us) = .ok root') :
    ∃ t u : Template, root = Template.node (t ++ [.text s]) ∧
      root' = Template.node (.text s' :: u) ∧
      parse (ts ++ .text (s ++ s') :: us) = .ok (Template.node (t ++ .text (s ++ s') :: u)) := by
  rcases parse_eq_ok_iff_sequence.mp ha with ⟨_, hns, rfl, hnesting⟩
  rcases parse_eq_ok_iff_sequence.mp hb with ⟨_, hms, rfl, hnesting'⟩
  rcases sequence_concat_text hns rfl with ⟨ns, rfl, hfront⟩
  rcases sequence_cons_text hms us rfl with ⟨ms, rfl, hback⟩
  rcases statements_of_sequence hfront with ⟨t, rfl⟩
  rcases statements_of_sequence hback with ⟨u, rfl⟩
  have hall : Sequence (ts ++ .text (s ++ s') :: us)
      (Statement.nodes (t ++ .text (s ++ s') :: u)) := by
    have hlonger : Sequence (ts ++ [.text (s ++ s')]) (Statement.nodes t ++ [.text (s ++ s')]) :=
      .text hfront
    have hjoined := sequence_append hback hlonger
    rw [List.append_assoc, List.append_assoc] at hjoined
    rw [Statement.nodes_append]
    exact hjoined
  refine ⟨t, u, ?_, rfl, parse_eq_ok_iff_sequence.mpr ⟨_, hall, rfl, ?_⟩⟩
  · rw [Template.node, Statement.nodes_append]
    rfl
  · -- A text encloses nothing.
    rw [Node.nestingAll_append] at hnesting
    rw [Statement.nodes_append, Node.nestingAll_append]
    simp only [Statement.nodes, Statement.node, Node.nestingAll, Node.nesting]
      at hnesting hnesting' ⊢
    omega

end

end Stencil
