import Stencil.Integer
import Stencil.Text.Shown

/-!
# Tokens

What a template's source is made of: runs of literal text, and between `[%` and
`%]` the words, numbers and signs of the expression language.

A token carries no position. Where it was found is a `Span`, a range of bytes of
the source in its UTF-8 form, and a `Spanned` is a token together with its span.

## Main definitions

* `Keyword`: The words with a meaning of their own.
* `Token`: One item of a template.
* `Token.shown`: A token as a message quotes it.
* `Token.listed`: A token as a listing of tokens names it.
* `Span`, `Spanned`: A range of bytes, and a token with its range.
* `Span.slice?`: The part of a text that a span covers.
-/

namespace Stencil

/-- The words that are no identifiers. -/
inductive Keyword
  | ifWord
  | forWord
  | inWord
  | endWord
  | nilWord
deriving Repr, DecidableEq

namespace Keyword

/-- How the keyword is spelled. -/
def spelling : Keyword → String
  | ifWord => "if"
  | forWord => "for"
  | inWord => "in"
  | endWord => "end"
  | nilWord => "nil"

/-- The keyword's name in a listing of tokens. -/
def listed : Keyword → String
  | ifWord => "If"
  | forWord => "For"
  | inWord => "In"
  | endWord => "End"
  | nilWord => "Nil"

/-- The keyword with this spelling. -/
def ofSpelling? (word : String) : Option Keyword :=
  [ifWord, forWord, inWord, endWord, nilWord].find? (·.spelling == word)

end Keyword

/-- An item of a template. -/
inductive Token
  /-- Literal text outside of all tags. -/
  | text (s : String)
  /-- The `[%` that opens a tag. -/
  | tagOpen
  /-- The `%]` that closes a tag. -/
  | tagClose
  | keyword (word : Keyword)
  /-- Decimal digits, as written. -/
  | integer (digits : String)
  | identifier (name : String)
  | bracketOpen
  | bracketClose
  | comma
  | operator (op : Operator)
deriving Repr, DecidableEq

namespace Token

/-- The token as a message quotes it: literal text in quoted form, all else as it
    is spelled. -/
def shown : Token → String
  | text s => Text.quote s
  | tagOpen => "[%"
  | tagClose => "%]"
  | keyword word => word.spelling
  | integer digits => digits
  | identifier name => name
  | bracketOpen => "["
  | bracketClose => "]"
  | comma => ","
  | operator op => op.symbol

/-- The name of an operator's token in a listing. -/
def listedOperator : Operator → String
  | .add => "Plus"
  | .sub => "Minus"
  | .mul => "Star"
  | .div => "Slash"

/-- The token as a listing names it: its kind, and what it carries in quoted form. -/
def listed : Token → String
  | text s => "Text(" ++ Text.quote s ++ ")"
  | tagOpen => "Open"
  | tagClose => "Close"
  | keyword word => word.listed
  | integer digits => "Integer(" ++ Text.quote digits ++ ")"
  | identifier name => "Identifier(" ++ Text.quote name ++ ")"
  | bracketOpen => "LBracket"
  | bracketClose => "RBracket"
  | comma => "Comma"
  | operator op => listedOperator op

end Token

/-- The number of bytes that characters take up in UTF-8. -/
def byteLength (cs : List Char) : Nat :=
  cs.foldr (fun c n => c.utf8Size + n) 0

/-- A range of bytes of a source, from `start` up to but not including `stop`. -/
structure Span where
  start : Nat
  stop : Nat
deriving Repr, DecidableEq

namespace Span

/-- The ends of the range with two dots between them. -/
def shown (s : Span) : String :=
  Text.ofNat s.start ++ ".." ++ Text.ofNat s.stop

/-- The characters after the first `n` bytes, if a character starts there. -/
def dropBytes? : Nat → List Char → Option (List Char)
  | 0, cs => some cs
  | _ + 1, [] => none
  | n + 1, c :: cs => if c.utf8Size ≤ n + 1 then dropBytes? (n + 1 - c.utf8Size) cs else none

/-- The characters of the first `n` bytes, if a character ends there. -/
def takeBytes? : Nat → List Char → Option (List Char)
  | 0, _ => some []
  | _ + 1, [] => none
  | n + 1, c :: cs =>
    if c.utf8Size ≤ n + 1 then (takeBytes? (n + 1 - c.utf8Size) cs).map (c :: ·) else none

/-- The part of a text that the range covers, if both its ends lie between
    characters of the text. -/
def slice? (s : Span) (source : String) : Option String :=
  ((dropBytes? s.start source.toList).bind (takeBytes? (s.stop - s.start))).map String.ofList

end Span

/-- A token and the range of bytes it was read from. -/
structure Spanned where
  token : Token
  span : Span
deriving Repr, DecidableEq

end Stencil
