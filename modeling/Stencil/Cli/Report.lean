import Stencil.Render

/-!
# Error Reports

How an error is shown beside the line it is in. The part of the line that the error
points at is marked, and a rule leads from it to the message:

| Line of the report                                               |
|------------------------------------------------------------------|
| the name of the input                                            |
| the line itself, with the part highlighted                       |
| a rule under the part, with a stem                               |
| the stem                                                         |
| the stem, turned toward the message                              |
| the end of the frame                                             |

All widths are counted in bytes of the line. An error that points at nothing is shown
by its message alone.

## Main definitions

* `dim`, `red`, `redBold`: A text in a style of the terminal.
* `Report`: A line in three parts, the middle one marked, and a message.
* `Report.text`: The report, line by line.
* `TemplateError.report`: What is shown for an error in a line.
-/

namespace Stencil

/-- A text in a style of the terminal, given by the style's code. -/
def styled (code s : String) : String :=
  "\x1b[" ++ code ++ "m" ++ s ++ "\x1b[0m"

/-- Faint text. -/
def dim (s : String) : String :=
  styled "2" s

/-- Red text. -/
def red (s : String) : String :=
  styled "31" s

/-- Red text in bold. -/
def redBold (s : String) : String :=
  styled "1;31" s

/-- A text, a number of times. -/
def repeated (n : Nat) (s : String) : String :=
  (List.replicate n s).foldl (· ++ ·) ""

/-- A number of spaces. -/
def spaces (n : Nat) : String :=
  repeated n " "

/-- A line in three parts, of which the middle one is marked, and what is said of it. -/
structure Report where
  before : String
  marked : String
  after : String
  message : String
deriving Repr, DecidableEq

namespace Report

/-- The report on a part of a line, if the part is cut between characters. -/
def of? (line : String) (span : Span) (message : String) : Option Report :=
  match (Span.mk 0 span.start).slice? line, span.slice? line,
    (Span.mk span.stop line.utf8ByteSize).slice? line with
  | some before, some marked, some after => some ⟨before, marked, after, message⟩
  | _, _, _ => none

/-- The columns in front of the stem. -/
def left (r : Report) : Nat :=
  r.marked.utf8ByteSize / 2

/-- The columns behind the stem that are still under the marked part. -/
def right (r : Report) : Nat :=
  r.marked.utf8ByteSize - r.left - 1

/-- A line of the frame under the marked line, with the columns after the part left
    blank. -/
def under (r : Report) (mark : String) : String :=
  "  ┆ " ++ spaces r.before.utf8ByteSize ++ redBold mark ++ spaces r.after.utf8ByteSize

/-- The lines of the report. -/
def lines (r : Report) : List String :=
  [ "  ╭─[repl]",
    "  │",
    "1 │ " ++ r.before ++ redBold r.marked ++ r.after,
    r.under (repeated r.left "─" ++ "┬" ++ repeated r.right "─"),
    r.under (spaces r.left ++ "│" ++ spaces r.right),
    "  ┆ " ++ spaces (r.before.utf8ByteSize + r.left)
      ++ redBold ("╰" ++ repeated (r.right + r.after.utf8ByteSize + 1) "─")
      ++ " " ++ red r.message,
    "──╯" ]

/-- The report, each of its lines with a line end. -/
def text (r : Report) : String :=
  r.lines.foldl (fun s line => s ++ line ++ "\n") ""

end Report

namespace TemplateError

/-- What is shown for an error in a line. -/
def report (line : String) (e : TemplateError) : String :=
  match (e.span? line).bind fun span => Report.of? line span e.message with
  | some r => r.text
  | none => red e.message ++ "\n"

end TemplateError

end Stencil
