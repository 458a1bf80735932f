import Stencil.Node.SyntaxError
import Stencil.Proofs.Numeral
import Stencil.Node

/-!
# The Grammar of Templates

Which lists of tokens are templates, and with which tree.

| Phrase      | Form                                                                  |
|-------------|-----------------------------------------------------------------------|
| `Primary`   | a number, `nil`, a name, or elements between `[` and `]`              |
| `Elements`  | at least one `Primary`, with commas between them                      |
| `Product`   | a `Primary`, then any number of `*` or `/` with a `Primary`           |
| `Sum`       | a `Product`, then any number of `+` or `-` with a `Product`           |
| `Tag`       | `[%` `Sum` `%]`, or a block with a `Sequence` between its tags        |
| `Sequence`  | any number of literal texts and tags                                  |

Each relation says that a list of tokens is a phrase of its kind with a certain tree.
Nothing is said about how a phrase is found. Chains of operators are given with the
last operator outermost, so that they nest to the left, and a sequence is given with
its last statement outermost.

`Node.nesting` is how many blocks and arrays enclose each other in a tree. A block
encloses its body and not its condition or iterable, and an array its elements.

## Main definitions

* `Grammar.Primary`, `Grammar.Elements`: Values and the elements of arrays.
* `Grammar.Product`, `Grammar.Sum`: Chains of operators.
* `Grammar.Sequence`, `Grammar.Tag`: Statements.
* `Grammar.Template`: Whole templates.
* `Node.nesting`: The number of blocks and arrays that enclose each other.
-/

namespace Stencil

namespace Grammar

mutual

/-- The tokens of a value. A comma may follow the last element of an array, but an array
    with no element has no comma. -/
inductive Primary : List Token → Node → Prop
  | integer {digits : String} {n : Int64} :
    Denotes digits n → Primary [.integer digits] (.integer n)
  | nil : Primary [.keyword .nilWord] .nil
  | lookup {name : String} : Primary [.identifier name] (.lookup name)
  | emptyArray : Primary [.bracketOpen, .bracketClose] (.array [])
  | array {ts : List Token} {ns : List Node} :
    Elements ts ns → Primary (.bracketOpen :: (ts ++ [.bracketClose])) (.array ns)
  | arrayComma {ts : List Token} {ns : List Node} :
    Elements ts ns → Primary (.bracketOpen :: (ts ++ [.comma, .bracketClose])) (.array ns)

/-- The tokens of elements with commas between them. -/
inductive Elements : List Token → List Node → Prop
  | one {ts : List Token} {n : Node} : Primary ts n → Elements ts [n]
  | more {ts us : List Token} {ns : List Node} {n : Node} :
    Elements ts ns → Primary us n → Elements (ts ++ .comma :: us) (ns ++ [n])

end

/-- The tokens of values with `*` and `/` between them. -/
inductive Product : List Token → Node → Prop
  | one {ts : List Token} {n : Node} : Primary ts n → Product ts n
  | more {ts us : List Token} {op : Operator} {lhs rhs : Node} :
    Product ts lhs → op.isAdditive = false → Primary us rhs →
    Product (ts ++ .operator op :: us) (.binary op lhs rhs)

/-- The tokens of products with `+` and `-` between them. -/
inductive Sum : List Token → Node → Prop
  | one {ts : List Token} {n : Node} : Product ts n → Sum ts n
  | more {ts us : List Token} {op : Operator} {lhs rhs : Node} :
    Sum ts lhs → op.isAdditive = true → Product us rhs →
    Sum (ts ++ .operator op :: us) (.binary op lhs rhs)

/-- The tag that ends a block. -/
def endTag : List Token :=
  [.tagOpen, .keyword .endWord, .tagClose]

mutual

/-- The tokens of statements in order. -/
inductive Sequence : List Token → List Node → Prop
  | nil : Sequence [] []
  | text {ts : List Token} {ns : List Node} {s : String} :
    Sequence ts ns → Sequence (ts ++ [.text s]) (ns ++ [.text s])
  | tag {ts us : List Token} {ns : List Node} {n : Node} :
    Sequence ts ns → Tag us n → Sequence (ts ++ us) (ns ++ [n])

/-- The tokens of a tag, and of all that stands between it and its end where it opens a
    block. -/
inductive Tag : List Token → Node → Prop
  | print {ts : List Token} {e : Node} : Sum ts e → Tag (.tagOpen :: (ts ++ [.tagClose])) (.print e)
  | ifThen {ts us : List Token} {condition : Node} {ns : List Node} :
    Sum ts condition → Sequence us ns →
    Tag (.tagOpen :: .keyword .ifWord :: (ts ++ .tagClose :: (us ++ endTag)))
      (.ifThen condition (.sequence ns))
  | forEach {ts us : List Token} {name : String} {iterable : Node} {ns : List Node} :
    Sum ts iterable → Sequence us ns →
    Tag (.tagOpen :: .keyword .forWord :: .identifier name :: .keyword .inWord ::
        (ts ++ .tagClose :: (us ++ endTag)))
      (.forEach name iterable (.sequence ns))

end

/-- The tokens of a whole template, whose tree is the sequence of its statements. -/
def Template (ts : List Token) (root : Node) : Prop :=
  ∃ ns, Sequence ts ns ∧ root = .sequence ns

theorem Primary.ne_nil {ts : List Token} {n : Node} (h : Primary ts n) : ts ≠ [] := by
  cases h <;> exact List.cons_ne_nil _ _

/-- There is no expression without a token. -/
theorem Sum.ne_nil {ts : List Token} {n : Node} (h : Sum ts n) : ts ≠ [] := by
  cases h with
  | one h =>
      cases h with
      | one h => exact h.ne_nil
      | more _ _ _ => exact List.append_ne_nil_of_right_ne_nil _ (List.cons_ne_nil _ _)
  | more _ _ _ => exact List.append_ne_nil_of_right_ne_nil _ (List.cons_ne_nil _ _)

end Grammar

mutual

/-- How many blocks and arrays enclose each other in a tree. -/
def Node.nesting : Node → Nat
  | .sequence statements => Node.nestingAll statements
  | .text _ => 0
  | .print e => e.nesting
  | .integer _ => 0
  | .nil => 0
  | .lookup _ => 0
  | .array elements => Node.nestingAll elements + 1
  | .binary _ lhs rhs => max lhs.nesting rhs.nesting
  | .ifThen condition body => max condition.nesting (body.nesting + 1)
  | .forEach _ iterable body => max iterable.nesting (body.nesting + 1)

/-- The greatest nesting among nodes. -/
def Node.nestingAll : List Node → Nat
  | [] => 0
  | n :: ns => max n.nesting (Node.nestingAll ns)

end

end Stencil
