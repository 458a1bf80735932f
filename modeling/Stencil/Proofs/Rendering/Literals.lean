import Stencil.Proofs.Grammar.Recognition
import Stencil.Proofs.Numeral.Canonical
import Stencil.Proofs.Rendering

/-!
# Printed Values Are Expressions

What a value prints as is an expression for it, if the value is made of integers that are
not negative and of arrays.

The grammar has no sign in front of a number and no texts, and nil prints as nothing, so no
more can be expected. Of the values that are left each has a literal, the tree of the same
shape. The text that such a value prints as is a layout of tokens: each comma has a blank
behind it, and no other token has one. These tokens are those of the literal, which the code
of the literal turns into the value again, the last item first.

An array prints its first item without a comma, whereas the grammar takes the last element
of an array off. So where items are followed from the first to the last, what is shown is
that the items behind a comma go on with whatever elements are in front of them.

## Main definitions

* `Value.IsLiteral`: Made of integers that are not negative and of arrays.
* `Value.nesting`: How many arrays enclose each other.
* `Value.literal`: The tree of the same shape.
* `Value.pieces`: The tokens of the printed value, with the blanks behind them.
* `Value.source`: The tag that prints what the value prints as.
* `Value.root`: The tree of that tag.
* `Program.ComesToPrint`: A run comes to print a value.
* `Laid`: Tokens of an expression can be laid out with some blanks.

## Theorems

* `isNumber_showInteger`: An integer that is not negative prints as a number.
* `write_pieces`: A literal prints as its tokens written out.
* `laid_pieces`: The tokens of a literal can be laid out in front of any but a number.
* `primary_pieces`: The tokens of a literal are those of its tree.
* `exists_expression`: The literal is an expression with the value itself as its value.
* `scan_source`, `parse_source`: The tag of a literal is scanned and parsed.
* `comesToPrint`: The code of the literal leaves the value to be printed.
* `display_expresses`: What a literal prints as is an expression for it.
-/

namespace Stencil

open Grammar Program

namespace Value

/-- Made of integers that are not negative and of arrays. -/
inductive IsLiteral : Value → Prop
  | integer {n : Int64} : 0 ≤ n.toInt → IsLiteral (.integer n)
  | array {items : List Value} : (∀ v ∈ items, IsLiteral v) → IsLiteral (.array items)

theorem IsLiteral.nonneg {n : Int64} (h : (Value.integer n).IsLiteral) : 0 ≤ n.toInt := by
  cases h with
  | integer hn => exact hn

theorem IsLiteral.items {items : List Value} (h : (Value.array items).IsLiteral) :
    ∀ v ∈ items, v.IsLiteral := by
  cases h with
  | array hitems => exact hitems

mutual

/-- How many arrays enclose each other in a value. -/
def nesting : Value → Nat
  | .nil => 0
  | .integer _ => 0
  | .text _ => 0
  | .array items => nestingAll items + 1

/-- The greatest nesting among values. -/
def nestingAll : List Value → Nat
  | [] => 0
  | v :: vs => max v.nesting (nestingAll vs)

end

mutual

/-- The tree of the same shape as a value. -/
def literal : Value → Node
  | .nil => .nil
  | .integer n => .integer n
  | .text s => .text s
  | .array items => .array (literals items)

/-- The trees of the same shapes as values. -/
def literals : List Value → List Node
  | [] => []
  | v :: vs => v.literal :: literals vs

end

mutual

/-- The tokens of a printed value, with the blanks behind each. Those behind the last one
    are given. -/
def pieces : Value → String → List (Token × String)
  | .nil, _ => []
  | .integer n, gap => [(.integer (showInteger n), gap)]
  | .text s, gap => [(.text s, gap)]
  | .array [], gap => [(.bracketOpen, ""), (.bracketClose, gap)]
  | .array (v :: vs), gap =>
    (.bracketOpen, "") :: (v.pieces "" ++ laterPieces vs ++ [(.bracketClose, gap)])

/-- The tokens of the items after the first, each behind a comma and a blank. -/
def laterPieces : List Value → List (Token × String)
  | [] => []
  | v :: vs => (.comma, " ") :: (v.pieces "" ++ laterPieces vs)

end

/-- The tag that prints what the value prints as. -/
def source (v : Value) : String :=
  "[% " ++ v.display ++ " %]"

/-- The tree of a template that prints the literal of the value, and nothing else. -/
def root (v : Value) : Node :=
  .sequence [.print v.literal]

end Value

/-- The run comes to print a value: there is nothing else on the stack, and all the rest is
    as it was at the start. -/
def Program.ComesToPrint (p : Program) (vars : Vars) (v : Value) : Prop :=
  ∃ pc, p.Reaches (p.start vars) ((p.start vars).pushed pc [v]) ∧ p.code[pc]? = some .printTop

section Text

/-- Digits without a leading zero are a number. -/
theorem isNumber_of_numeral {ds : List Char} (hnum : IsNumeral ds) (hhead : ds.head? ≠ some '0') :
    IsNumber (String.ofList ds) := by
  cases ds with
  | nil => exact absurd rfl hnum.1
  | cons d ds =>
      have hd : d ≠ '0' := by
        rintro rfl
        exact hhead rfl
      exact .inr ⟨d, ds, String.toList_ofList, hnum.2 d List.mem_cons_self, hd,
        fun c hc => hnum.2 c (List.mem_cons_of_mem _ hc)⟩

/-- An integer that is not negative prints as a number. -/
theorem isNumber_showInteger {n : Int64} (hn : 0 ≤ n.toInt) : IsNumber (showInteger n) := by
  rcases Int.eq_ofNat_of_zero_le hn with ⟨m, hm⟩
  rw [showInteger, hm]
  by_cases hzero : m = 0
  · rw [hzero]
    exact .inl ofInt_zero
  · rw [ofInt_natCast]
    exact isNumber_of_numeral (Text.isNumeral_decimal m) (Text.head?_decimal hzero)

/-- What stands between brackets is written out between them. -/
theorem write_brackets (ps : List (Token × String)) (gap : String) :
    write ((.bracketOpen, "") :: (ps ++ [(.bracketClose, gap)]))
      = "[" ++ write ps ++ "]" ++ gap := by
  have hopen : Token.bracketOpen.written = "[" := rfl
  have hclose : Token.bracketClose.written = "]" := rfl
  have hnil : write [] = "" := rfl
  rw [write_cons, write_append, write_cons, hopen, hclose, hnil]
  simp only [String.append_empty, String.append_assoc]

mutual

/-- A literal prints as its tokens written out. -/
theorem write_pieces : (v : Value) → v.IsLiteral → ∀ gap : String,
    write (v.pieces gap) = v.display ++ gap
  | .integer n, _, gap => by
      rw [Value.pieces, write_cons, Value.display]
      exact String.append_empty
  | .array [], _, gap => write_brackets [] gap
  | .array (v :: vs), h, gap => by
      rcases List.forall_mem_cons.mp h.items with ⟨hv, hvs⟩
      rw [Value.pieces, write_brackets, write_append, write_pieces v hv, write_laterPieces vs hvs,
        String.append_empty]
      rfl

/-- The items after the first print as their tokens written out. -/
theorem write_laterPieces : (vs : List Value) → (∀ v ∈ vs, v.IsLiteral) →
    write (Value.laterPieces vs) = Value.displayRest vs
  | [], _ => rfl
  | v :: vs, h => by
      rcases List.forall_mem_cons.mp h with ⟨hv, hvs⟩
      rw [Value.laterPieces, write_cons, write_append, write_pieces v hv, write_laterPieces vs hvs,
        String.append_empty]
      rfl

end

end Text

section Layout

/-- Tokens of an expression may stand one behind the other with the blanks between them. -/
def Laid (ps : List (Token × String)) : Prop :=
  Arranged .expression (ps.map Prod.fst) ∧ WellSpaced .expression ps

/-- What stands in front is no number. -/
def StartsApart (ps : List (Token × String)) : Prop :=
  ∀ p ∈ ps.head?, p.1.isInteger = false

variable {t : Token} {gap : String} {rest : List (Token × String)}

theorem startsApart_cons (ht : t.isInteger = false) : StartsApart ((t, gap) :: rest) := by
  intro p hp
  cases hp
  exact ht

/-- A token that does not end the tag may stand in front of what it does not join. -/
theorem laid_cons (hmode : t.mode = .expression) (hwf : t.WellFormed)
    (hstays : Mode.expression.after t = .expression) (hgap : ∀ c ∈ gap.toList, c ∈ blanks)
    (hjoins : ∀ p ∈ rest.head?, ¬ t.Joins p.1) (hrest : Laid rest) : Laid ((t, gap) :: rest) := by
  constructor
  · refine ⟨hmode, hwf, fun u _ htexts => ?_, ?_⟩
    · rw [Token.isText_of_mode hmode] at htexts
      exact nomatch htexts.1
    · rw [hstays]
      exact hrest.1
  · refine ⟨hgap, fun hliteral => ?_, fun p hp h => absurd h (hjoins p hp), ?_⟩
    · rw [hstays] at hliteral
      exact nomatch hliteral
    · rw [hstays]
      exact hrest.2

/-- A number may stand in front of anything but a number. -/
theorem laid_integer {digits : String} (hwf : IsNumber digits)
    (hgap : ∀ c ∈ gap.toList, c ∈ blanks) (hapart : StartsApart rest) (hrest : Laid rest) :
    Laid ((.integer digits, gap) :: rest) := by
  refine laid_cons rfl hwf rfl hgap (fun p hp hjoins => ?_) hrest
  rcases hjoins with hword | hinteger
  · exact nomatch hword.1
  · rw [hapart p hp] at hinteger
    exact nomatch hinteger.2.2

/-- A bracket or a comma may stand in front of anything. -/
theorem laid_sign (ht : t = .bracketOpen ∨ t = .bracketClose ∨ t = .comma)
    (hgap : ∀ c ∈ gap.toList, c ∈ blanks) (hrest : Laid rest) : Laid ((t, gap) :: rest) := by
  rcases ht with rfl | rfl | rfl <;>
    exact laid_cons rfl trivial rfl hgap (fun _ _ => Token.not_joins rfl rfl) hrest

theorem mem_blanks_of_empty : ∀ c ∈ "".toList, c ∈ blanks := nofun

theorem mem_blanks_of_blank : ∀ c ∈ " ".toList, c ∈ blanks :=
  List.forall_mem_singleton.mpr List.mem_cons_self

/-- The items after the first start with a comma, where there are any. -/
theorem startsApart_laterPieces (vs : List Value) (hrest : StartsApart rest) :
    StartsApart (Value.laterPieces vs ++ rest) := by
  cases vs with
  | nil => exact hrest
  | cons v vs => exact startsApart_cons rfl

mutual

/-- The tokens of a literal can be laid out in front of anything but a number. -/
theorem laid_pieces : (v : Value) → v.IsLiteral → ∀ {gap : String} {rest : List (Token × String)},
    (∀ c ∈ gap.toList, c ∈ blanks) → StartsApart rest → Laid rest → Laid (v.pieces gap ++ rest)
  | .integer n, h, gap, rest, hgap, hapart, hrest =>
      laid_integer (isNumber_showInteger h.nonneg) hgap hapart hrest
  | .array [], h, gap, rest, hgap, hapart, hrest =>
      laid_sign (.inl rfl) mem_blanks_of_empty (laid_sign (.inr (.inl rfl)) hgap hrest)
  | .array (v :: vs), h, gap, rest, hgap, _, hrest => by
      rcases List.forall_mem_cons.mp h.items with ⟨hv, hvs⟩
      -- Behind the last item is the bracket, whatever follows the array.
      have hclosed : Laid ((.bracketClose, gap) :: rest) := laid_sign (.inr (.inl rfl)) hgap hrest
      have hapart : StartsApart ((.bracketClose, gap) :: rest) := startsApart_cons rfl
      have hitems := laid_pieces v hv mem_blanks_of_empty (startsApart_laterPieces vs hapart)
        (laid_laterPieces vs hvs hapart hclosed)
      rw [Value.pieces, List.cons_append, List.append_assoc, List.append_assoc]
      exact laid_sign (.inl rfl) mem_blanks_of_empty hitems

/-- The tokens of the items after the first can be laid out in front of anything but a
    number. -/
theorem laid_laterPieces : (vs : List Value) → (∀ v ∈ vs, v.IsLiteral) →
    ∀ {rest : List (Token × String)}, StartsApart rest → Laid rest →
    Laid (Value.laterPieces vs ++ rest)
  | [], _, _, _, hrest => hrest
  | v :: vs, h, rest, hapart, hrest => by
      rcases List.forall_mem_cons.mp h with ⟨hv, hvs⟩
      have hitems := laid_pieces v hv mem_blanks_of_empty (startsApart_laterPieces vs hapart)
        (laid_laterPieces vs hvs hapart hrest)
      rw [Value.laterPieces, List.cons_append, List.append_assoc]
      exact laid_sign (.inr (.inr rfl)) mem_blanks_of_blank hitems

end

/-- The tag of a literal is scanned into its tokens between those of the tag. -/
theorem scan_source {v : Value} (h : v.IsLiteral) :
    scan v.source = .ok (.tagOpen :: ((v.pieces " ").map Prod.fst ++ [.tagClose])) := by
  have hclosed : Laid [(.tagClose, "")] :=
    ⟨⟨rfl, trivial, nofun, trivial⟩, ⟨mem_blanks_of_empty, fun _ => rfl, nofun, trivial⟩⟩
  have hapart : StartsApart [(.tagClose, "")] := startsApart_cons rfl
  have hlaid := laid_pieces v h mem_blanks_of_blank hapart hclosed
  refine scan_eq_ok_iff.mpr ⟨(.tagOpen, " ") :: (v.pieces " " ++ [(.tagClose, "")]), ?_, ?_, ?_, ?_⟩
  · exact ⟨rfl, trivial, fun _ _ htexts => (nomatch htexts.1), hlaid.1⟩
  · exact ⟨mem_blanks_of_blank, nofun, fun _ _ hjoins => absurd hjoins (Token.not_joins rfl rfl),
      hlaid.2⟩
  · have hopen : "[% " = "[%" ++ " " := by decide
    have hclose : " %]" = " " ++ "%]" := by decide
    rw [write_cons, write_append, write_pieces v h, Value.source, hopen, hclose]
    simp only [write, Token.written, Token.shown, List.map_cons, List.map_nil, String.join_cons,
      String.join_nil, String.append_assoc, String.append_empty]
  · rw [List.map_cons, List.map_append]
    rfl

end Layout

section Meaning

mutual

/-- The tokens of a literal are those of its tree. -/
theorem primary_pieces : (v : Value) → v.IsLiteral → ∀ gap : String,
    Primary ((v.pieces gap).map Prod.fst) v.literal
  | .integer n, _, _ => .integer (denotes_showInteger n)
  | .array [], _, _ => .emptyArray
  | .array (v :: vs), h, gap => by
      rcases List.forall_mem_cons.mp h.items with ⟨hv, hvs⟩
      have hitems := elements_laterPieces vs hvs (.one (primary_pieces v hv ""))
      rw [Value.pieces, List.map_cons, List.map_append, List.map_append]
      exact .array hitems

/-- The tokens of items behind a comma go on with the elements in front of it. -/
theorem elements_laterPieces : (vs : List Value) → (∀ v ∈ vs, v.IsLiteral) →
    ∀ {ts : List Token} {ns : List Node}, Elements ts ns →
    Elements (ts ++ (Value.laterPieces vs).map Prod.fst) (ns ++ Value.literals vs)
  | [], _, ts, ns, hfront => by
      rw [Value.laterPieces, Value.literals, List.map_nil, List.append_nil, List.append_nil]
      exact hfront
  | v :: vs, h, ts, ns, hfront => by
      rcases List.forall_mem_cons.mp h with ⟨hv, hvs⟩
      -- With the first item taken in front, the others go on behind it.
      have hall := elements_laterPieces vs hvs (.more hfront (primary_pieces v hv ""))
      rw [List.append_assoc, List.append_assoc] at hall
      rw [Value.laterPieces, List.map_cons, List.map_append]
      exact hall

end

mutual

/-- A tree nests as deep as the value of its shape. -/
theorem nesting_literal : (v : Value) → v.literal.nesting = v.nesting
  | .nil => rfl
  | .integer _ => rfl
  | .text _ => rfl
  | .array items => by
      rw [Value.literal, Node.nesting, Value.nesting, nestingAll_literals items]

theorem nestingAll_literals : (vs : List Value) →
    Node.nestingAll (Value.literals vs) = Value.nestingAll vs
  | [] => rfl
  | v :: vs => by
      rw [Value.literals, Node.nestingAll, Value.nestingAll, nesting_literal v,
        nestingAll_literals vs]

end

mutual

/-- The literal is an expression with the value itself as its value. -/
theorem exists_expression : (v : Value) → v.IsLiteral → ∃ e : Expression, e.node = v.literal ∧
    ∀ (env : Environment) (base : Nat), e.evaluate env base = .ok v
  | .integer n, _ => ⟨.integer n, rfl, fun _ _ => rfl⟩
  | .array items, h => by
      rcases exists_expressions items h.items with ⟨es, hes, hvalues⟩
      refine ⟨.array es, ?_, fun env base => ?_⟩
      · rw [Expression.node, hes, Value.literal]
      · rw [Expression.evaluate, hvalues]
        rfl

theorem exists_expressions : (vs : List Value) → (∀ v ∈ vs, v.IsLiteral) →
    ∃ es : List Expression, Expression.nodes es = Value.literals vs ∧
      ∀ (env : Environment) (base : Nat), Expression.evaluateReversed env base es = .ok vs
  | [], _ => ⟨[], rfl, fun _ _ => rfl⟩
  | v :: vs, h => by
      rcases List.forall_mem_cons.mp h with ⟨hv, hvs⟩
      rcases exists_expression v hv with ⟨e, he, hvalue⟩
      rcases exists_expressions vs hvs with ⟨es, hes, hvalues⟩
      refine ⟨e :: es, ?_, fun env base => ?_⟩
      · rw [Expression.nodes, he, hes, Value.literals]
      · rw [Expression.evaluateReversed, hvalues, hvalue]
        rfl

end

variable {v : Value}

/-- The tokens of a literal's tag are parsed into a single statement that prints its tree,
    up to the limit. -/
theorem parse_source (h : v.IsLiteral) {root : Node} :
    parse (.tagOpen :: ((v.pieces " ").map Prod.fst ++ [.tagClose])) = .ok root ↔
      root = v.root ∧ v.nesting ≤ 256 := by
  have hall : Grammar.Template (.tagOpen :: ((v.pieces " ").map Prod.fst ++ [.tagClose])) v.root :=
    ⟨_, .tag .nil (.print (.one (.one (primary_pieces v h " ")))), rfl⟩
  have hnesting : v.root.nesting = v.nesting := by
    rw [Value.root, Node.nesting, Node.nestingAll, Node.nesting, nesting_literal, Node.nestingAll,
      Nat.max_zero]
  rw [parse, readTree_eq_ok_iff]
  constructor
  · rintro ⟨htemplate, hfits⟩
    rcases template_unique htemplate hall
    rw [hnesting] at hfits
    exact ⟨rfl, hfits 256 rfl⟩
  · rintro ⟨rfl, hle⟩
    refine ⟨hall, fun m hm => ?_⟩
    cases hm
    rw [hnesting]
    exact hle

/-- The code of a literal leaves the value on the stack for the instruction behind it, which
    prints it. -/
theorem comesToPrint (h : v.IsLiteral) (vars : Vars) : (compile v.root).ComesToPrint vars v := by
  rcases exists_expression v h with ⟨e, he, hvalue⟩
  let p := compile v.root
  have hp := p.placed_toList
  rw [compile_code] at hp
  simp only [Value.root, layout, layoutAll, ← he, List.append_assoc] at hp
  rcases placed_layout hp with ⟨hcode, hprint⟩
  have hnames : (mention e.node .empty).toList <+: p.names.toList := by
    simp only [p, Value.root, compile_names, mention, mentionAll, ← he]
    exact List.prefix_rfl
  -- The run starts at address zero, where the code of the expression stands.
  have hyields := evaluate_yields e (s := p.start vars) hcode hnames (binds_ofRoot p vars)
  rw [hvalue] at hyields
  exact ⟨_, hyields, (placed_cons hprint).1⟩

/-- The tag of a literal within the limit is rendered to what the literal prints as. -/
theorem render_source (h : v.IsLiteral) (hnesting : v.nesting ≤ 256) (vars : Vars) :
    render v.source vars = .ok v.display := by
  rcases exists_expression v h with ⟨e, he, hvalue⟩
  have hparse := (parse_source h).mpr ⟨rfl, hnesting⟩
  rw [Value.root, ← he] at hparse
  have hread : readTemplate v.source = .ok (Template.node [.print e]) :=
    readTemplate_eq_ok_iff.mpr ⟨_, scan_source h, hparse⟩
  refine (render_eq_ok_iff hread).mpr ?_
  rw [Template.output, Statement.performAll, Statement.perform, hvalue]
  -- No statement is behind the tag, so nothing comes behind the text.
  exact congrArg Except.ok String.append_empty

end Meaning

/-- What a value prints as is an expression for it, if the value is made of integers that are
    not negative and of arrays. The tag with the printed value is scanned. It is parsed
    exactly up to 256 arrays in one another, and into a single statement that prints the
    value's literal. The code of this statement comes to print an equal value, and the tag is
    rendered to the printed value again. -/
theorem display_expresses {v : Value} (h : v.IsLiteral) :
    ∃ tokens, scan v.source = .ok tokens ∧
      (∀ root, parse tokens = .ok root ↔ root = v.root ∧ v.nesting ≤ 256) ∧
      ∀ vars, (compile v.root).ComesToPrint vars v ∧
        (v.nesting ≤ 256 → render v.source vars = .ok v.display) :=
  ⟨_, scan_source h, fun _ => parse_source h, fun vars =>
    ⟨comesToPrint h vars, fun hnesting => render_source h hnesting vars⟩⟩

/-- An array of an empty one, of the greatest integer, and of an array that starts with a
    zero. -/
theorem display_expresses_nested :
    (Value.array [.array [], .integer Int64.maxValue, .array [.integer 0, .integer 10]]).IsLiteral ∧
      render "[% [[], 9223372036854775807, [0, 10]] %]" .empty
        = .ok "[[], 9223372036854775807, [0, 10]]" := by
  have hliteral : (Value.array
      [.array [], .integer Int64.maxValue, .array [.integer 0, .integer 10]]).IsLiteral := by
    refine .array fun v hv => ?_
    simp only [List.mem_cons, List.not_mem_nil, or_false] at hv
    rcases hv with rfl | rfl | rfl
    · exact .array nofun
    · exact .integer (by decide)
    · refine .array fun v hv => ?_
      simp only [List.mem_cons, List.not_mem_nil, or_false] at hv
      rcases hv with rfl | rfl
      · exact .integer (by decide)
      · exact .integer (by decide)
  have hdisplay : (Value.array
      [.array [], .integer Int64.maxValue, .array [.integer 0, .integer 10]]).display
        = "[[], 9223372036854775807, [0, 10]]" := by decide +kernel
  rcases display_expresses hliteral with ⟨_, _, _, hall⟩
  have hrender := (hall .empty).2 (by decide +kernel)
  rw [Value.source, hdisplay] at hrender
  exact ⟨hliteral, hrender⟩

end Stencil
