import Stencil.Cli.Assignment
import Stencil.Text.Pieces

/-!
# Command Line Arguments

What the words behind the program's name ask for: to render a template, to read
lines in a session, or to print the version. Options may stand before and behind the
template's name; `--` ends them. The value of an option follows as the next word, or
behind an equals sign; a word that starts with a dash is no value unless it is the
dash alone.

## Main definitions

* `RenderRequest`: What to render, and how.
* `Request`: What the program is asked to do.
* `Word.read`: What one word is among the arguments.
* `Request.read?`: What some words ask for, `none` if that is not clear.
-/

namespace Stencil

/-- What to render: the template's name, where to search for it, the variables, and
    which stages to show. -/
structure RenderRequest where
  name : Option String
  dirs : List String
  assignments : List Assignment
  showTokens : Bool
  showListing : Bool
deriving Repr, DecidableEq

namespace RenderRequest

/-- Nothing has been asked for yet. -/
def empty : RenderRequest :=
  ⟨none, [], [], false, false⟩

/-- One more directory to search, which needs a name. -/
def addDir? (r : RenderRequest) (dir : String) : Option RenderRequest :=
  if dir.isEmpty then none else some { r with dirs := r.dirs ++ [dir] }

/-- One more assignment, from its text. -/
def addAssignment? (r : RenderRequest) (s : String) : Option RenderRequest :=
  (Assignment.read? s).map fun a => { r with assignments := r.assignments ++ [a] }

/-- The tokens are to be shown, which can be asked for once. -/
def withTokens? (r : RenderRequest) : Option RenderRequest :=
  if r.showTokens then none else some { r with showTokens := true }

/-- The listing is to be shown, which can be asked for once. -/
def withListing? (r : RenderRequest) : Option RenderRequest :=
  if r.showListing then none else some { r with showListing := true }

/-- The template's name, of which there is one. -/
def withName? (r : RenderRequest) (name : String) : Option RenderRequest :=
  if r.name.isSome then none else some { r with name := some name }

/-- The variables of the assignments. -/
def vars (r : RenderRequest) : Vars :=
  .ofAssignments r.assignments

end RenderRequest

/-- What a word is among the arguments of the render command. -/
inductive Word
  /-- An option whose value is the next word. -/
  | waiting (add : RenderRequest → String → Option RenderRequest)
  /-- An option that is complete, or something that is no option. -/
  | complete (add : RenderRequest → Option RenderRequest)
  /-- The end of the options. -/
  | endOfOptions

/-- A text without an equals sign at its start. -/
def dropEquals (s : String) : String :=
  (Text.dropFront? "=" s).getD s

/-- The word has the form of an option: it starts with a dash, and is not the dash
    alone. -/
def isOptionWord (word : String) : Bool :=
  Text.hasFront "-" word && word != "-"

/-- What a word is while options may still come. -/
def Word.read (word : String) : Word :=
  if word = "--" then .endOfOptions
  else if word = "--tokens" then .complete (·.withTokens?)
  else if word = "--disasm" then .complete (·.withListing?)
  else if word = "--include" ∨ word = "-I" then .waiting (·.addDir? ·)
  else if word = "--set" then .waiting (·.addAssignment? ·)
  else
    match Text.dropFront? "--include=" word, Text.dropFront? "--set=" word,
      Text.dropFront? "-I" word with
    | some dir, _, _ => .complete (·.addDir? dir)
    | none, some s, _ => .complete (·.addAssignment? s)
    | none, none, some dir => .complete (·.addDir? (dropEquals dir))
    | none, none, none =>
      if isOptionWord word then .complete fun _ => none
      else .complete (·.withName? word)

namespace RenderRequest

/-- The words behind the end of the options, all of them names. -/
def readNames? : List String → RenderRequest → Option RenderRequest
  | [], r => some r
  | word :: words, r => (r.withName? word).bind (readNames? words)

/-- What the words behind the render command ask for, added to what is known. -/
def read? : List String → RenderRequest → Option RenderRequest
  | [], r => some r
  | word :: words, r =>
    match Word.read word with
    | .endOfOptions => readNames? words r
    | .complete add => (add r).bind (read? words)
    | .waiting add =>
      match words with
      | value :: rest => if isOptionWord value then none else (add r value).bind (read? rest)
      | [] => none

end RenderRequest

/-- What the program is asked to do. -/
inductive Request
  | render (name : String) (r : RenderRequest)
  | session
  | version

namespace Request

/-- The word asks for the version, alone or in front of other letters. -/
def asksVersion (word : String) : Bool :=
  word == "--version" || Text.hasFront "-V" word

/-- What the words ask for. -/
def read? : List String → Option Request
  | [] => none
  | word :: words =>
    if asksVersion word then some .version
    else if word = "render" then
      (RenderRequest.read? words .empty).bind fun r => r.name.map (.render · r)
    else if word = "repl" then
      if words = [] ∨ words = ["--"] then some .session else none
    else none

end Request

end Stencil
