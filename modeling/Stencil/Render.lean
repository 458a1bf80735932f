import Stencil.Machine.Halting
import Stencil.Node.Reader
import Stencil.Token.Scanner

/-!
# Rendering

A template from its source to its output: the source is scanned, read into a tree,
compiled, and run with variables. The first stage that fails decides the error.

## Main definitions

* `TemplateError`: The error of a stage.
* `TemplateError.message`: The error in words, with the stage in front.
* `TemplateError.span?`: The part of the source that an error points at.
* `readTemplate`: The tree of a source.
* `render`: The output of a source with variables.
-/

namespace Stencil

/-- Why a template has no output. -/
inductive TemplateError
  | scan (e : ScanError)
  | parse (e : SyntaxError)
  | run (f : Fault)
deriving Repr, DecidableEq

namespace TemplateError

/-- What went wrong, in words. An error of the scanner says where it is found by
    itself; the others name their stage. -/
def message : TemplateError → String
  | scan e => e.message
  | parse e => "syntax error: " ++ e.message
  | run f => "runtime error: " ++ f.message

/-- What the message says without the stage, where that is a message of its own. -/
def cause? : TemplateError → Option String
  | scan _ => none
  | parse e => some e.message
  | run f => some f.message

/-- The span of the token with a number, or of the last one if there is none. -/
def tokenSpan? (tokens : List Spanned) (number : Nat) : Option Span :=
  (tokens[number]? <|> tokens.getLast?).map Spanned.span

/-- The part of the source that the error points at. A fault of a run points at
    none. -/
def span? (source : String) : TemplateError → Option Span
  | scan e => some e.span
  | parse e =>
    match scanSpanned source with
    | .ok tokens => tokenSpan? tokens e.position
    | .error _ => none
  | run _ => none

end TemplateError

/-- The tree of a template's source. -/
def readTemplate (source : String) : Except TemplateError Node :=
  match scan source with
  | .error e => .error (.scan e)
  | .ok tokens =>
    match parse tokens with
    | .error e => .error (.parse e)
    | .ok root => .ok root

/-- The output of a template's tree with variables. -/
def renderNode (root : Node) (vars : Vars) : Except TemplateError String :=
  match root.run vars with
  | .error f => .error (.run f)
  | .ok output => .ok output

/-- The output of a template's source with variables. -/
def render (source : String) (vars : Vars) : Except TemplateError String :=
  match readTemplate source with
  | .error e => .error e
  | .ok root => renderNode root vars

end Stencil
