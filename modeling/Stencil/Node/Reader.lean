import Stencil.Integer
import Stencil.Node
import Stencil.Node.SyntaxError

/-!
# Reading Trees

Reads tokens into a tree, by this grammar:

| Phrase      | Form                                                             |
|-------------|------------------------------------------------------------------|
| `sequence`  | any number of literal texts and tags                             |
| `tag`       | `[%` `sum` `%]`                                                  |
|             | `[%` `if` `sum` `%]` `sequence` `[%` `end` `%]`                  |
|             | `[%` `for` name `in` `sum` `%]` `sequence` `[%` `end` `%]`       |
| `sum`       | `product`, then any number of `+` or `-` with a `product`        |
| `product`   | `value`, then any number of `*` or `/` with a `value`            |
| `value`     | number, `nil`, name, or values between `[` and `]`, with commas; |
|             | a comma may follow the last                                      |

The reader takes one token at a time and never looks back. What has been read and
is not yet complete stands in its state: the blocks that are open, and within a
tag the arrays that are open and the operators that still wait for their right
operand. So each token either leads to one next state or is an error at its own
position, and the end of the tokens is either the end of the template or an error.

One word needs the token after it. After `[% end` inside a block the reader waits:
with `%]` the block is complete, with anything else `end` was no value.

The nesting limit is a parameter. A block counts once its opening tag is
complete, an array from its bracket on.

## Main definitions

* `Reader`: What has been read so far.
* `Reader.feed`: The state after one more token.
* `Reader.finish`: The tree, if the tokens may end here.
* `readTree`: Reads a list of tokens under a nesting limit.
* `parse`: Reads a list of tokens under the limit of templates.
-/

namespace Stencil

/-- An operator with its left operand, which waits for the right one. -/
abbrev Pending := Option (Operator × Node)

/-- Completes a waiting operator with its right operand. -/
def Pending.apply (p : Pending) (rhs : Node) : Node :=
  match p with
  | some (op, lhs) => .binary op lhs rhs
  | none => rhs

/-- The operators that wait: at most one additive, and inside its right operand at
    most one multiplicative. -/
structure Chain where
  sum : Pending
  product : Pending

namespace Chain

/-- No operator waits. -/
def empty : Chain :=
  ⟨none, none⟩

/-- The expression that ends with this value. -/
def close (c : Chain) (value : Node) : Node :=
  c.sum.apply (c.product.apply value)

/-- The operators that wait after this value and one more operator. A multiplicative
    one takes in the product so far, an additive one the whole sum. -/
def push (c : Chain) (value : Node) (op : Operator) : Chain :=
  if op.isAdditive then ⟨some (op, c.close value), none⟩
  else ⟨c.sum, some (op, c.product.apply value)⟩

end Chain

/-- What the expression of a tag is for. -/
inductive Purpose
  | print
  | condition
  | iterable (name : String)

/-- An array literal that is open: its bracket, and its elements, the last one first. -/
structure OpenArray where
  start : Nat
  elements : List Node

/-- The expression of a tag that is being read: where the tag opens, what it is for,
    which operators wait, and which arrays are open, the innermost first. -/
structure OpenTag where
  start : Nat
  purpose : Purpose
  chain : Chain
  arrays : List OpenArray

/-- What a block does with its body. -/
inductive BlockHead
  | conditional (condition : Node)
  | loop (name : String) (iterable : Node)

namespace BlockHead

/-- The kind of the block. -/
def kind : BlockHead → BlockKind
  | conditional _ => .conditional
  | loop _ _ => .loop

/-- The block with its body. -/
def node (h : BlockHead) (body : Node) : Node :=
  match h with
  | conditional condition => .ifThen condition body
  | loop name iterable => .forEach name iterable body

end BlockHead

/-- A block that is open: where its tag opens, what it does, and the statements in
    front of it, the last one first. -/
structure OpenBlock where
  start : Nat
  head : BlockHead
  before : List Node

/-- Where between two tokens the reader stands. -/
inductive Place
  /-- Between statements. -/
  | statement
  /-- After the `[%` at `start`. -/
  | tagStart (start : Nat)
  /-- After `[% end` inside a block; `word` is the position of `end`. -/
  | endWord (word : Nat)
  /-- After `[% for`. -/
  | loopVariable (start : Nat)
  /-- After `[% for` and a name. -/
  | loopIn (start : Nat) (name : String)
  /-- In front of a value, or of the end of an array. -/
  | operand (tag : OpenTag)
  /-- After a value. -/
  | operator (tag : OpenTag) (value : Node)

/-- What has been read: how many tokens, where in the grammar the next one stands,
    the statements of the innermost open block, the last one first, and the open
    blocks, the innermost first. -/
structure Reader where
  position : Nat
  place : Place
  statements : List Node
  blocks : List OpenBlock

namespace Reader

/-- Nothing has been read. -/
def start : Reader :=
  ⟨0, .statement, [], []⟩

/-- One more token has been read, and the next stands at a new place. -/
def goto (r : Reader) (place : Place) : Reader :=
  { r with position := r.position + 1, place := place }

/-- One more token has been read, and it completes a statement. -/
def addStatement (r : Reader) (statement : Node) : Reader :=
  { r with
    position := r.position + 1
    place := .statement
    statements := statement :: r.statements }

/-- The error for a token that stands where something else was expected. -/
def unexpected (r : Reader) (expected : Expected) (found : Token) : Except SyntaxError Reader :=
  .error (.unexpected r.position expected (some found))

/-- The innermost block is complete. Without an open block nothing changes. -/
def closeBlock (r : Reader) : Reader :=
  match r.blocks with
  | [] => r
  | b :: outer =>
    ⟨r.position + 1, .statement, b.head.node (.sequence r.statements.reverse) :: b.before, outer⟩

/-- The limit admits no further block or array inside `depth` others. -/
def isFull (limit : Option Nat) (depth : Nat) : Bool :=
  match limit with
  | some n => decide (n ≤ depth)
  | none => false

/-- A block opens after its tag, if the limit admits one. -/
def openBlock (limit : Option Nat) (r : Reader) (start : Nat) (head : BlockHead) :
    Except SyntaxError Reader :=
  if isFull limit r.blocks.length then .error (.tooDeep start)
  else .ok ⟨r.position + 1, .statement, [], ⟨start, head, r.statements⟩ :: r.blocks⟩

/-- A tag is complete with its expression. -/
def closeTag (limit : Option Nat) (r : Reader) (tag : OpenTag) (expression : Node) :
    Except SyntaxError Reader :=
  match tag.purpose with
  | .print => .ok (r.addStatement (.print expression))
  | .condition => r.openBlock limit tag.start (.conditional expression)
  | .iterable name => r.openBlock limit tag.start (.loop name expression)

/-- A token in front of a value: the value itself, or the bracket of an array. Inside
    an array a closing bracket may stand there too. -/
def feedOperand (limit : Option Nat) (r : Reader) (tag : OpenTag) (t : Token) :
    Except SyntaxError Reader :=
  match t with
  | .integer digits =>
    match readInteger? digits with
    | some n => .ok (r.goto (.operator tag (.integer n)))
    | none => .error (.integerTooBig r.position digits)
  | .keyword .nilWord => .ok (r.goto (.operator tag .nil))
  | .identifier name => .ok (r.goto (.operator tag (.lookup name)))
  | .bracketOpen =>
    if isFull limit (r.blocks.length + tag.arrays.length) then .error (.tooDeep r.position)
    else .ok (r.goto (.operand { tag with arrays := ⟨r.position, []⟩ :: tag.arrays }))
  | .bracketClose =>
    match tag.arrays with
    | a :: outer =>
      .ok (r.goto (.operator { tag with arrays := outer } (.array a.elements.reverse)))
    | [] => r.unexpected .value t
  | _ => r.unexpected .value t

/-- A token after a value. Inside an array it is a comma or the closing bracket,
    outside an operator or the end of the tag. -/
def feedOperator (limit : Option Nat) (r : Reader) (tag : OpenTag) (value : Node) (t : Token) :
    Except SyntaxError Reader :=
  match tag.arrays with
  | a :: outer =>
    match t with
    | .comma =>
      .ok (r.goto (.operand { tag with arrays := ⟨a.start, value :: a.elements⟩ :: outer }))
    | .bracketClose =>
      .ok (r.goto (.operator { tag with arrays := outer }
        (.array (value :: a.elements).reverse)))
    | _ => r.unexpected .arrayDelimiter t
  | [] =>
    match t with
    | .operator op => .ok (r.goto (.operand { tag with chain := tag.chain.push value op }))
    | .tagClose => r.closeTag limit tag (tag.chain.close value)
    | _ => r.unexpected .tagClose t

/-- A token right after `[%`. -/
def feedTagStart (limit : Option Nat) (r : Reader) (start : Nat) (t : Token) :
    Except SyntaxError Reader :=
  match t with
  | .tagClose => .error (.missingExpression r.position (some t))
  | .keyword .ifWord => .ok (r.goto (.operand ⟨start, .condition, .empty, []⟩))
  | .keyword .forWord => .ok (r.goto (.loopVariable start))
  | .keyword .endWord =>
    if r.blocks.isEmpty then r.unexpected .value t else .ok (r.goto (.endWord r.position))
  | _ => r.feedOperand limit ⟨start, .print, .empty, []⟩ t

/-- The state after one more token. -/
def feed (limit : Option Nat) (r : Reader) (t : Token) : Except SyntaxError Reader :=
  match r.place with
  | .statement =>
    match t with
    | .text s => .ok (r.addStatement (.text s))
    | .tagOpen => .ok (r.goto (.tagStart r.position))
    | _ => r.unexpected .statement t
  | .tagStart start => r.feedTagStart limit start t
  | .endWord word =>
    match t with
    | .tagClose => .ok r.closeBlock
    | _ => .error (.unexpected word .value (some (.keyword .endWord)))
  | .loopVariable start =>
    match t with
    | .identifier name => .ok (r.goto (.loopIn start name))
    | _ => r.unexpected .loopVariable t
  | .loopIn start name =>
    match t with
    | .keyword .inWord => .ok (r.goto (.operand ⟨start, .iterable name, .empty, []⟩))
    | _ => r.unexpected .inWord t
  | .operand tag => r.feedOperand limit tag t
  | .operator tag value => r.feedOperator limit tag value t

/-- The error for tokens that end inside an expression. An open array comes before
    what else is missing. -/
def endInTag (r : Reader) (tag : OpenTag) (expected : Expected) : SyntaxError :=
  match tag.arrays with
  | a :: _ => .unterminatedArray a.start
  | [] => .unexpected r.position expected none

/-- The tree, if the tokens may end here. -/
def finish (r : Reader) : Except SyntaxError Node :=
  match r.place with
  | .statement =>
    match r.blocks with
    | [] => .ok (.sequence r.statements.reverse)
    | b :: _ => .error (.unterminatedBlock b.head.kind b.start)
  | .tagStart _ => .error (.missingExpression r.position none)
  | .endWord word => .error (.unexpected word .value (some (.keyword .endWord)))
  | .loopVariable _ => .error (.unexpected r.position .loopVariable none)
  | .loopIn _ _ => .error (.unexpected r.position .inWord none)
  | .operand tag => .error (r.endInTag tag .value)
  | .operator tag _ => .error (r.endInTag tag .tagClose)

/-- The tree after all further tokens, or the first error. -/
def run (limit : Option Nat) (r : Reader) : List Token → Except SyntaxError Node
  | [] => r.finish
  | t :: ts =>
    match r.feed limit t with
    | .ok r' => run limit r' ts
    | .error e => .error e

end Reader

/-- Reads tokens into a tree, with at most `limit` blocks and arrays inside each other
    if a limit is given. -/
def readTree (limit : Option Nat) (tokens : List Token) : Except SyntaxError Node :=
  Reader.start.run limit tokens

/-- Reads tokens into the tree of a template. -/
def parse (tokens : List Token) : Except SyntaxError Node :=
  readTree (some maxNesting) tokens

end Stencil
