import Stencil.Token

/-!
# Syntax Errors

Why a list of tokens is no template. Positions count tokens from zero; where the
tokens ran out, there is no token found, and the position is one past the last.

## Main definitions

* `Expected`: What could have stood where something else was found.
* `BlockKind`: The two kinds of block.
* `SyntaxError`: The ways in which reading a template fails.
* `SyntaxError.position`: The token an error points at.
* `SyntaxError.message`: An error in words.
-/

namespace Stencil

/-- How many blocks and array literals may enclose each other. -/
def maxNesting : Nat := 256

/-- What was looked for when reading failed. -/
inductive Expected
  | statement
  | value
  | tagClose
  | inWord
  | loopVariable
  | arrayDelimiter
deriving Repr, DecidableEq

namespace Expected

/-- What was looked for, in words. -/
def phrase : Expected → String
  | statement => "text or `[%`"
  | value => "a value"
  | tagClose => "`%]`"
  | inWord => "`in`"
  | loopVariable => "a loop variable"
  | arrayDelimiter => "`,` or `]`"

end Expected

/-- A block is either conditional or a loop. -/
inductive BlockKind
  | conditional
  | loop
deriving Repr, DecidableEq

namespace BlockKind

/-- The word that a block of this kind opens with. -/
def spelling : BlockKind → String
  | conditional => Keyword.ifWord.spelling
  | loop => Keyword.forWord.spelling

end BlockKind

/-- Why tokens are no template. -/
inductive SyntaxError
  /-- Something other than what was looked for. -/
  | unexpected (position : Nat) (expected : Expected) (found : Option Token)
  /-- A tag that holds nothing. -/
  | missingExpression (position : Nat) (found : Option Token)
  /-- An array literal that is still open at the end; the position is its bracket. -/
  | unterminatedArray (position : Nat)
  /-- A block that is still open at the end; the position is where its tag opens. -/
  | unterminatedBlock (kind : BlockKind) (position : Nat)
  /-- Digits of a number that does not fit. -/
  | integerTooBig (position : Nat) (literal : String)
  /-- A block or array literal inside too many others. -/
  | tooDeep (position : Nat)
deriving Repr, DecidableEq

namespace SyntaxError

/-- The token the error points at. -/
def position : SyntaxError → Nat
  | unexpected p _ _ => p
  | missingExpression p _ => p
  | unterminatedArray p => p
  | unterminatedBlock _ p => p
  | integerTooBig p _ => p
  | tooDeep p => p

/-- A token in a message, or the end of the input where there is none. -/
def foundPhrase : Option Token → String
  | some t => "`" ++ t.shown ++ "`"
  | none => "end of input"

/-- The end of a message: where the error is. -/
def atToken (position : Nat) : String :=
  " at token " ++ Text.ofNat position

/-- What went wrong, in words. -/
def message : SyntaxError → String
  | unexpected p expected found =>
    "expected " ++ expected.phrase ++ ", found " ++ foundPhrase found ++ atToken p
  | missingExpression p _ => "missing expression after `[%`" ++ atToken p
  | unterminatedArray p => "unterminated array literal starting" ++ atToken p
  | unterminatedBlock kind p =>
    "`" ++ kind.spelling ++ "` block starting" ++ atToken p ++ " is missing `[% end %]`"
  | integerTooBig p literal =>
    "integer literal `" ++ literal ++ "`" ++ atToken p ++ " does not fit in 64 bits"
  | tooDeep p =>
    "blocks and arrays nest more than " ++ Text.ofNat maxNesting ++ " levels deep" ++ atToken p

end SyntaxError

end Stencil
