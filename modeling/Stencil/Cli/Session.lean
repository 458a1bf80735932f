import Stencil.Cli.Assignment
import Stencil.Cli.Report
import Stencil.Cli.Typed
import Stencil.Code.Listing
import Stencil.Text.Pieces

/-!
# Sessions

Lines are read one after another and each is taken for a template, except for the few
commands that start with a colon: to show or hide the tokens and the listing of each
template, to set a variable, and to quit. Settings and variables last from line to
line; a line that fails changes neither.

A template that is typed is rendered one stage after another, so that what each stage
makes of it can be shown before the next one starts. What has been shown stays, also where
a later stage fails.

## Main definitions

* `Stages`: Which stages are shown.
* `Staged`: What was shown on the way, and what came out.
* `renderStaged`: Rendering stage after stage.
* `Session`: The settings and the variables between two lines.
* `Session.read`: What a line is, and the session after it.
* `Session.runLines`: What lines print, until the end or a quit.
-/

namespace Stencil

/-- Which stages of a template are shown. -/
structure Stages where
  tokens : Bool
  listing : Bool
deriving Repr, DecidableEq

namespace Stages

/-- No stage is shown. -/
def nothing : Stages :=
  ⟨false, false⟩

end Stages

/-- The line that shows a token. -/
def Spanned.line (t : Spanned) : String :=
  dim ("[" ++ t.span.shown ++ "]") ++ " " ++ t.token.listed ++ "\n"

/-- The lines that show tokens. -/
def tokenLines (tokens : List Spanned) : String :=
  tokens.foldl (fun s t => s ++ t.line) ""

/-- What was shown on the way to an output or an error, and which of the two came out. -/
structure Staged (ε : Type) where
  shown : String
  result : Except ε String

/-- Renders a source stage after stage. The tokens are shown once it is scanned, and the
    listing once it is compiled, each where this is asked for. -/
def renderStaged (what : Stages) (source : String) (vars : Vars) : Staged TemplateError :=
  match scanSpanned source with
  | .error e => ⟨"", .error (.scan e)⟩
  | .ok tokens =>
    let shown := if what.tokens then tokenLines tokens else ""
    match parse (tokens.map Spanned.token) with
    | .error e => ⟨shown, .error (.parse e)⟩
    | .ok root =>
      let shown := if what.listing then shown ++ (compile root).listing else shown
      match root.run vars with
      | .error f => ⟨shown, .error (.run f)⟩
      | .ok output => ⟨shown, .ok output⟩

/-- The settings and the variables between two lines. -/
structure Session where
  stages : Stages
  vars : Vars
deriving DecidableEq

/-- What a line of a session is. -/
inductive Line
  | template
  /-- A command, with what is said when it is carried out. -/
  | command (feedback : String)
  | quit
deriving Repr, DecidableEq

namespace Session

/-- Nothing is shown, and no variable is set. -/
def start : Session :=
  ⟨.nothing, .empty⟩

/-- A switch in words. -/
def onOff (on : Bool) : String :=
  if on then "on" else "off"

/-- The word of the command that sets a variable. -/
def setWord : String := ":set "

/-- A text without the words of the set command at its start, however many. -/
def dropSetWords : List Char → List Char
  | ':' :: 's' :: 'e' :: 't' :: ' ' :: rest => dropSetWords rest
  | cs => cs

/-- What a set command sets: the rest of the command, without the blanks around it. -/
def setArgument (command : String) : String :=
  Text.trim (String.ofList (dropSetWords command.toList))

/-- Carries out a set command, given by the whole line. -/
def set (s : Session) (command : String) : Line × Session :=
  match Assignment.read? (setArgument command) with
  | some a => (.command (a.key ++ " = " ++ a.raw), { s with vars := s.vars.assign a })
  | none => (.command (Assignment.complaint (setArgument command)), s)

/-- What a line is, and the session after it. Blanks around a command do not count. -/
def read (s : Session) (line : String) : Line × Session :=
  let word := Text.trim line
  if word = ":tokens" then
    let s := { s with stages := { s.stages with tokens := !s.stages.tokens } }
    (.command ("token display " ++ onOff s.stages.tokens), s)
  else if word = ":disasm" then
    let s := { s with stages := { s.stages with listing := !s.stages.listing } }
    (.command ("disassembly " ++ onOff s.stages.listing), s)
  else if word = ":quit" then (.quit, s)
  else if Text.hasFront setWord word then s.set word
  else (.template, s)

end Session

/-- What is printed: the text of the output and that of the diagnostics. -/
structure Printed where
  out : String
  err : String
deriving Repr, DecidableEq

namespace Printed

/-- Nothing is printed. -/
def empty : Printed :=
  ⟨"", ""⟩

/-- One thing printed after another, on each of the two ways out. -/
def append (p q : Printed) : Printed :=
  ⟨p.out ++ q.out, p.err ++ q.err⟩

end Printed

namespace Session

/-- How the result of a line is told: its output, or the report on its error. -/
def resultText (line : String) : Except TemplateError String → String
  | .ok output => output ++ "\n"
  | .error e => e.report line

/-- What a line that is a template prints. -/
def printTemplate (s : Session) (line : String) : Printed :=
  let staged := renderStaged s.stages line s.vars
  ⟨resultText line staged.result, staged.shown⟩

/-- What a line prints, and the session after it; nothing once the session is quit. -/
def answer? (s : Session) (line : String) : Option (Printed × Session) :=
  match s.read line with
  | (.quit, _) => none
  | (.command feedback, s) => some (⟨dim feedback ++ "\n", ""⟩, s)
  | (.template, s) => some (s.printTemplate line, s)

/-- What lines print, until the end or a quit. -/
def runLines : Session → List String → Printed
  | _, [] => .empty
  | s, line :: lines =>
    match s.answer? line with
    | some (printed, s) => printed.append (s.runLines lines)
    | none => .empty

/-- The lines of an input, given with the characters of the current one, the last one
    first. A line ends at a line feed, with or without a carriage return in front; what
    follows the last line feed is a line if it is not empty. -/
def linesFrom : List Char → List Char → List String
  | [], [] => []
  | line, [] => [String.ofList line.reverse]
  | line, '\n' :: cs =>
    let ended := match line with
      | '\r' :: kept => kept
      | _ => line
    String.ofList ended.reverse :: linesFrom [] cs
  | line, c :: cs => linesFrom (c :: line) cs

/-- The lines of an input, what was typed in each carried out. -/
def linesOf (input : String) : List String :=
  (linesFrom [] input.toList).map typedLine

/-- What a session prints for an input. -/
def run (input : String) : Printed :=
  start.runLines (linesOf input)

end Session

end Stencil
