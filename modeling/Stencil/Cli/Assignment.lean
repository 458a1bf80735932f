import Stencil.Vars

/-!
# Assignments

Variables that are given as text, in the form `KEY=VALUE`. The key ends at the first
equals sign. The word `nil` and texts that denote an integer are read as values of
their own; everything else stays a text.

## Main definitions

* `Assignment`: A key and the text of its value.
* `Assignment.read?`: The assignment that a text is.
* `readValue`: The value that a text stands for.
* `Vars.assign`: The variables after an assignment.
-/

namespace Stencil

/-- A key and the text of its value. -/
structure Assignment where
  key : String
  raw : String
deriving Repr, DecidableEq

/-- The value that a text stands for. -/
def readValue (raw : String) : Value :=
  if raw = "nil" then .nil
  else
    match readInteger? raw with
    | some n => .integer n
    | none => .text raw

namespace Assignment

/-- The characters in front of the first equals sign, and those behind it. -/
def split? : List Char → Option (List Char × List Char)
  | [] => none
  | c :: cs =>
    if c = '=' then some ([], cs)
    else (split? cs).map fun (key, raw) => (c :: key, raw)

/-- The assignment that a text is, if it has an equals sign. -/
def read? (s : String) : Option Assignment :=
  (split? s.toList).map fun (key, raw) => ⟨String.ofList key, String.ofList raw⟩

/-- What is said of a text that is no assignment. -/
def complaint (s : String) : String :=
  "expected KEY=VALUE, found `" ++ s ++ "`"

/-- The value that the assignment gives its key. -/
def value (a : Assignment) : Value :=
  readValue a.raw

end Assignment

/-- The variables after an assignment. -/
def Vars.assign (vars : Vars) (a : Assignment) : Vars :=
  vars.insert a.key a.value

/-- The variables after assignments, taken in order. -/
def Vars.ofAssignments (as : List Assignment) : Vars :=
  as.foldl Vars.assign .empty

end Stencil
