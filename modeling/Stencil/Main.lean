import Stencil.Cli.Command

/-!
# Entry Point

Connects the program to the outside: its arguments, the files it may read, and its
standard streams. What to print is decided elsewhere. Here the files that a request
can ask for are read, and the lines of a session are fetched one at a time, so that
each is answered before the next is typed.

## Main definitions

* `readPath`: What reading a path comes to.
* `answerLines`: The lines of a session, as they come.
* `main`: The program.
-/

namespace Stencil

/-- The system's number of an error, from a code that is the number itself or the
    number below zero. -/
def errorNumber (code : UInt32) : Nat :=
  min code.toNat (UInt32.size - code.toNat)

/-- The error that a failed read stands for, or nothing if the path is missing. -/
def resultOfError : IO.Error → ReadResult
  | .noFileOrDirectory .. => .ok none
  | .inappropriateType _ code details =>
    .error <| match errorNumber code with
      | 20 => .notADirectory
      | 21 => .isADirectory
      | _ => .other details
  | .invalidArgument _ code details =>
    .error <| match errorNumber code with
      | 36 => .invalidFilename
      | _ => .other details
  | e => .error (.other (toString e))

/-- What reading a path comes to. -/
def readPath (path : String) : IO ReadResult := do
  try
    let bytes ← IO.FS.readBinFile path
    match String.fromUTF8? bytes with
    | some text => return .ok (some text)
    | none => return .error .invalidData
  catch e => return resultOfError e

/-- Prints on both ways out. -/
def put (printed : Printed) : IO Unit := do
  (← IO.getStderr).putStr printed.err
  (← IO.getStdout).putStr printed.out
  (← IO.getStdout).flush

/-- Answers the lines of the input until it ends or the session is quit. -/
partial def answerLines (s : Session) : IO Unit := do
  let raw ← (← IO.getStdin).getLine
  match Session.linesOf raw with
  | line :: _ =>
    match s.answer? line with
    | some (printed, s) =>
      put printed
      answerLines s
    | none => return ()
  | [] => return ()

/-- Carries out a request, and gives the code to end with. -/
def carryOut : Option Request → IO Nat
  | some .session => do
    answerLines .start
    return 0
  | some (.render name r) => do
    let paths := r.searchPath.dirs.map (joinPath · name)
    let results ← paths.mapM readPath
    let read path := ((paths.zip results).lookup path).getD (.ok none)
    let ending := r.run read name
    put ending.printed
    return ending.code
  | some .version => do
    put ⟨versionLine, ""⟩
    return 0
  | none => do
    put ⟨"", "usage: render NAME [-I DIR]... [--set KEY=VALUE]... [--tokens] [--disasm] | repl\n"⟩
    return Ending.usageCode

end Stencil

/-- The program. -/
def main (arguments : List String) : IO UInt32 := do
  let code ← Stencil.carryOut (Stencil.Request.read? arguments)
  return code.toUInt32
