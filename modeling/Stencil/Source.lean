import Stencil.Render
import Stencil.Text.Pieces

/-!
# Template Sources

Where templates come from by name: a set held in memory, or directories that are
searched in order. A source answers with the text of a template, with nothing if
there is none of that name, or with the reason why it could not be read.

What reading a file does is a parameter of the search path, so the search itself is
a function of the answers that the reads give.

## Main definitions

* `ReadError`: Why something that is there could not be read.
* `TemplateSource`: Loads templates by name, and says where it looks.
* `TemplateSource.ofTemplates`: Templates held in memory.
* `SearchPath`: Directories in the order in which they are searched.
* `SearchPath.source`: The source that searches them.
* `EngineError`: Why a named template has no output.
* `TemplateSource.fetch`, `TemplateSource.render`: The text and the output of a
  named template.
-/

namespace Stencil

/-- Why a file that was asked for could not be read, other than that it is missing. -/
inductive ReadError
  | isADirectory
  | notADirectory
  /-- The contents are no UTF-8 text. -/
  | invalidData
  /-- The name, or a part of it, is too long. -/
  | invalidFilename
  /-- The name holds the null character, which no file's name can. -/
  | nullCharacter
  /-- Any other error, in the system's words. -/
  | other (words : String)
deriving Repr, DecidableEq

namespace ReadError

/-- What went wrong, in the system's words. -/
def message : ReadError → String
  | isADirectory => "Is a directory (os error 21)"
  | notADirectory => "Not a directory (os error 20)"
  | invalidData => "stream did not contain valid UTF-8"
  | invalidFilename => "File name too long (os error 36)"
  | nullCharacter => "file name contained an unexpected NUL byte"
  | other words => words

end ReadError

/-- What a read comes to: a text, nothing where there is nothing, or an error. -/
abbrev ReadResult := Except ReadError (Option String)

/-- Somewhere that templates can be loaded from by name. -/
structure TemplateSource where
  load : String → ReadResult
  /-- Where the source looks, for messages. -/
  describe : String := "template source"

namespace TemplateSource

/-- The source of the templates in a list, by name. -/
def ofTemplates (templates : List (String × String)) : TemplateSource where
  load name := .ok (templates.lookup name)
  describe := "in-memory templates (" ++ Text.ofNat templates.length ++ " loaded)"

end TemplateSource

/-- The path of a name inside a directory. An absolute name stands for itself, and so
    does any name in a directory without a name. -/
def joinPath (dir name : String) : String :=
  if Text.hasFront "/" name || dir.isEmpty then name
  else if dir.toList.getLast? = some '/' then dir ++ name
  else dir ++ "/" ++ name

/-- Directories in the order in which they are searched. -/
structure SearchPath where
  dirs : List String
deriving Repr, DecidableEq

namespace SearchPath

/-- The search of the working directory alone. -/
def default : SearchPath :=
  ⟨["."]⟩

/-- The first of some paths whose read finds something decides, with its contents or
    its error. -/
def firstFound (read : String → ReadResult) : List String → ReadResult
  | [] => .ok none
  | path :: paths =>
    match read path with
    | .ok none => firstFound read paths
    | found => found

/-- What a search for a name comes to. -/
def load (p : SearchPath) (read : String → ReadResult) (name : String) : ReadResult :=
  firstFound read (p.dirs.map (joinPath · name))

/-- The directories between parentheses. -/
def describe (p : SearchPath) : String :=
  "(" ++ String.intercalate " " p.dirs ++ ")"

/-- The source that searches the directories. -/
def source (p : SearchPath) (read : String → ReadResult) : TemplateSource :=
  ⟨p.load read, p.describe⟩

end SearchPath

/-- Why a named template has no output. -/
inductive EngineError
  | template (e : TemplateError)
  | notFound (name searched : String)
  | unreadable (name : String) (cause : ReadError)
deriving Repr, DecidableEq

namespace EngineError

/-- What went wrong, in words. -/
def message : EngineError → String
  | template e => e.message
  | notFound name searched => "template `" ++ name ++ "` not found in " ++ searched
  | unreadable name _ => "could not read template `" ++ name ++ "`"

/-- The messages from the error itself down to its first cause. -/
def chain (e : EngineError) : List String :=
  match e with
  | template t => e.message :: t.cause?.toList
  | notFound _ _ => [e.message]
  | unreadable _ cause => [e.message, cause.message]

end EngineError

namespace TemplateSource

/-- The text of a named template. -/
def fetch (s : TemplateSource) (name : String) : Except EngineError String :=
  match s.load name with
  | .ok (some text) => .ok text
  | .ok none => .error (.notFound name s.describe)
  | .error cause => .error (.unreadable name cause)

/-- The output of a template's text with variables, where it has one. -/
def renderText (text : String) (vars : Vars) : Except EngineError String :=
  match Stencil.render text vars with
  | .ok output => .ok output
  | .error e => .error (.template e)

/-- The output of a named template with variables. -/
def render (s : TemplateSource) (name : String) (vars : Vars) : Except EngineError String :=
  match s.fetch name with
  | .ok text => renderText text vars
  | .error e => .error e

end TemplateSource

end Stencil
