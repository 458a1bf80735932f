import Stencil.Cli.Arguments
import Stencil.Cli.Session
import Stencil.Source

/-!
# The Program

What a call of the program prints and which code it ends with, as a function of its
arguments, of the files it can read, and of its input.

A named template goes through the engine in one piece, unless some of its stages are to be
shown. Then its text is loaded and rendered one stage after another.

A template that fails is reported with the chain of what caused it. A chain of one is
indented; the messages of a longer chain are numbered. Where a message has several
lines, all but the first are indented like it.

## Main definitions

* `Ending`: What is printed, and the code the program ends with.
* `failureText`: The report of a template that failed.
* `TemplateSource.renderShown`: Rendering a named template, with its stages or without.
* `RenderRequest.run`: The ending of a render request.
* `runProgram`: The ending of a call.
-/

namespace Stencil

/-- What a call prints, and the code it ends with. -/
structure Ending where
  code : Nat
  printed : Printed
deriving Repr, DecidableEq

namespace Ending

/-- The code for arguments that are not understood. -/
def usageCode : Nat := 2

end Ending

/-- A text whose lines after the first are indented. -/
def indentRest (indent s : String) : String :=
  String.intercalate ("\n" ++ indent) (Text.pieces '\n' s)

/-- One cause of a chain, with its number. -/
def numberedCause (number : Nat) (message : String) : String :=
  "    " ++ Text.ofNat number ++ ": " ++ indentRest "       " message ++ "\n"

/-- The causes of a failure: one alone is indented, several are numbered. -/
def causeText : List String → String
  | [message] => "    " ++ indentRest "    " message ++ "\n"
  | messages =>
    (messages.zipIdx.map fun (message, number) => numberedCause number message).foldl (· ++ ·) ""

/-- The report of a template that failed. -/
def failureText (name : String) (e : EngineError) : String :=
  "Error: failed to render `" ++ name ++ "`\n\nCaused by:\n" ++ causeText e.chain

/-- Renders a named template. Where some stage is to be shown, its text is loaded first and
    rendered stage after stage. -/
def TemplateSource.renderShown (s : TemplateSource) (name : String) (vars : Vars) (what : Stages) :
    Staged EngineError :=
  if what.tokens || what.listing then
    match s.fetch name with
    | .error e => ⟨"", .error e⟩
    | .ok text =>
      let staged := renderStaged what text vars
      ⟨staged.shown, staged.result.mapError .template⟩
  else ⟨"", s.render name vars⟩

namespace RenderRequest

/-- The directories that are searched: those asked for, or the working directory. -/
def searchPath (r : RenderRequest) : SearchPath :=
  if r.dirs.isEmpty then .default else ⟨r.dirs⟩

/-- Which stages are shown. -/
def shown (r : RenderRequest) : Stages :=
  ⟨r.showTokens, r.showListing⟩

/-- The ending of a request to render a named template. -/
def run (r : RenderRequest) (read : String → ReadResult) (name : String) : Ending :=
  let staged := (r.searchPath.source read).renderShown name r.vars r.shown
  match staged.result with
  | .ok output => ⟨0, output, staged.shown⟩
  | .error e => ⟨1, "", staged.shown ++ failureText name e⟩

end RenderRequest

/-- The line that tells the program's version. -/
def versionLine : String := "iwakura 0.1.0\n"

/-- The ending of a call with arguments, where reading a path and the whole input are
    given. -/
def runProgram (arguments : List String) (read : String → ReadResult) (input : String) :
    Ending :=
  match Request.read? arguments with
  | none => ⟨Ending.usageCode, "", ""⟩
  | some .version => ⟨0, versionLine, ""⟩
  | some .session => ⟨0, Session.run input⟩
  | some (.render name r) => r.run read name

end Stencil
