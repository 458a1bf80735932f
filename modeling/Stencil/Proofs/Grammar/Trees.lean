import Stencil.Proofs.Grammar.Soundness
import Stencil.Proofs.Template

/-!
# Trees of the Grammar Are Templates

A tree that tokens are read into is well sorted.

`Node` has one type for statements and expressions, but the grammar never puts one where
the other belongs: the elements of an array and the operands of an operator are
expressions, and a body is a sequence of statements. So each derivation gives an
`Expression` or a `Statement` with the same tree, by recursion on the derivation, and what
is shown of templates holds of whatever is parsed.

## Theorems

* `expression_of_sum`: The tree of an expression's tokens is an expression's.
* `statements_of_sequence`: The trees of statements' tokens are statements'.
* `exists_template`: The tree of a template's tokens is a template's.
-/

namespace Stencil

open Grammar

theorem Expression.nodes_append (as bs : List Expression) :
    Expression.nodes (as ++ bs) = Expression.nodes as ++ Expression.nodes bs := by
  simp only [nodes_eq_map, List.map_append]

theorem Statement.nodes_append (as bs : List Statement) :
    Statement.nodes (as ++ bs) = Statement.nodes as ++ Statement.nodes bs := by
  simp only [nodes_eq_map, List.map_append]

mutual

theorem expression_of_primary : {ts : List Token} → {n : Node} → Primary ts n →
    ∃ e : Expression, e.node = n
  | _, _, @Primary.integer _ n _ => ⟨.integer n, rfl⟩
  | _, _, .nil => ⟨.nil, rfl⟩
  | _, _, @Primary.lookup name => ⟨.lookup name, rfl⟩
  | _, _, .emptyArray => ⟨.array [], rfl⟩
  | _, _, .array helements => by
      rcases expressions_of_elements helements with ⟨es, rfl⟩
      exact ⟨.array es, rfl⟩
  | _, _, .arrayComma helements => by
      rcases expressions_of_elements helements with ⟨es, rfl⟩
      exact ⟨.array es, rfl⟩

theorem expressions_of_elements : {ts : List Token} → {ns : List Node} → Elements ts ns →
    ∃ es : List Expression, Expression.nodes es = ns
  | _, _, .one hn => by
      rcases expression_of_primary hn with ⟨e, rfl⟩
      exact ⟨[e], rfl⟩
  | _, _, .more helements hn => by
      rcases expressions_of_elements helements with ⟨es, rfl⟩
      rcases expression_of_primary hn with ⟨e, rfl⟩
      exact ⟨es ++ [e], Expression.nodes_append es [e]⟩

end

theorem expression_of_product {ts : List Token} {n : Node} (h : Product ts n) :
    ∃ e : Expression, e.node = n := by
  induction h with
  | one hn => exact expression_of_primary hn
  | @more _ _ op _ _ _ _ hrhs ih =>
      rcases ih with ⟨lhs, rfl⟩
      rcases expression_of_primary hrhs with ⟨rhs, rfl⟩
      exact ⟨.binary op lhs rhs, rfl⟩

/-- The tree of an expression's tokens is an expression's. -/
theorem expression_of_sum {ts : List Token} {n : Node} (h : Grammar.Sum ts n) :
    ∃ e : Expression, e.node = n := by
  induction h with
  | one hn => exact expression_of_product hn
  | @more _ _ op _ _ _ _ hrhs ih =>
      rcases ih with ⟨lhs, rfl⟩
      rcases expression_of_product hrhs with ⟨rhs, rfl⟩
      exact ⟨.binary op lhs rhs, rfl⟩

mutual

/-- The trees of statements' tokens are statements'. -/
theorem statements_of_sequence : {ts : List Token} → {ns : List Node} → Sequence ts ns →
    ∃ ss : List Statement, Statement.nodes ss = ns
  | _, _, .nil => ⟨[], rfl⟩
  | _, _, @Sequence.text _ _ s hts => by
      rcases statements_of_sequence hts with ⟨ss, rfl⟩
      exact ⟨ss ++ [.text s], Statement.nodes_append ss [.text s]⟩
  | _, _, .tag hts hn => by
      rcases statements_of_sequence hts with ⟨ss, rfl⟩
      rcases statement_of_tag hn with ⟨s, rfl⟩
      exact ⟨ss ++ [s], Statement.nodes_append ss [s]⟩

theorem statement_of_tag : {ts : List Token} → {n : Node} → Tag ts n →
    ∃ s : Statement, s.node = n
  | _, _, .print he => by
      rcases expression_of_sum he with ⟨e, rfl⟩
      exact ⟨.print e, rfl⟩
  | _, _, .ifThen hcondition hbody => by
      rcases expression_of_sum hcondition with ⟨condition, rfl⟩
      rcases statements_of_sequence hbody with ⟨body, rfl⟩
      exact ⟨.ifThen condition body, rfl⟩
  | _, _, @Tag.forEach _ _ name _ _ hiterable hbody => by
      rcases expression_of_sum hiterable with ⟨iterable, rfl⟩
      rcases statements_of_sequence hbody with ⟨body, rfl⟩
      exact ⟨.forEach name iterable body, rfl⟩

end

/-- The tree of a template's tokens is a template's. -/
theorem exists_template {ts : List Token} {root : Node} (h : Grammar.Template ts root) :
    ∃ t : Template, root = t.node := by
  rcases h with ⟨ns, hns, rfl⟩
  rcases statements_of_sequence hns with ⟨t, rfl⟩
  exact ⟨t, rfl⟩

/-- Whatever is parsed is a template. -/
theorem template_of_parse {ts : List Token} {root : Node} (h : parse ts = .ok root) :
    ∃ t : Template, root = t.node :=
  exists_template (template_of_readTree h)

end Stencil
