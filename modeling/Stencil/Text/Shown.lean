import Stencil.Text.Classes
import Stencil.Text.Unprintable

/-!
# Numbers and Texts in Messages

How numbers and texts are written where they are shown.

A number is written in decimal, with a sign where it is negative, or in lower-case
hexadecimal. No form has leading zeros, except that `padded` fills a decimal up to a width.

A text inside a message or a listing stands on one line between double quotes, with every
character visible. What could not be seen, or would be taken for the end of the text, is
written as an escape.

## Main definitions

* `decimal`, `hexadecimal`: The digits of a natural number, highest first.
* `ofNat`, `ofInt`: A number's decimal text.
* `padded`: A decimal filled up with zeros on the left.
* `escape`: How one character is written between the quotes.
* `quote`: A whole text in quoted form.
-/

namespace Stencil

namespace Text

/-- The decimal digits of a number, highest first; zero has the one digit `0`. -/
def decimal (n : Nat) : List Char :=
  if n < 10 then [Nat.digitChar n] else decimal (n / 10) ++ [Nat.digitChar (n % 10)]
termination_by n
decreasing_by omega

/-- The lower-case hexadecimal digits of a number, highest first. -/
def hexadecimal (n : Nat) : List Char :=
  if n < 16 then [Nat.digitChar n] else hexadecimal (n / 16) ++ [Nat.digitChar (n % 16)]
termination_by n
decreasing_by omega

/-- The decimal text of a natural number. -/
def ofNat (n : Nat) : String :=
  String.ofList (decimal n)

/-- The decimal text of an integer. Only a negative one has a sign. -/
def ofInt (n : Int) : String :=
  if n < 0 then String.ofList ('-' :: decimal n.natAbs) else ofNat n.natAbs

/-- The decimal text of a number, with zeros on the left up to the width. -/
def padded (width n : Nat) : String :=
  String.ofList ((decimal n).leftpad width '0')

/-- The double quote that encloses a quoted text. -/
def quoteMark : Char := '\x22'

/-- A character by its code point: `u` and hexadecimal digits in braces. -/
def escapeCode (c : Char) : List Char :=
  ['\\', 'u', '\x7b'] ++ hexadecimal c.toNat ++ ['\x7d']

/-- How a character is written between the quotes. Tab, line ends, the null
    character, the quote and the backslash have escapes of their own; of the rest,
    those without a glyph and those that would be drawn onto the character in front
    are written by code point. -/
def escape (c : Char) : List Char :=
  if c = '\t' then ['\\', 't']
  else if c = '\r' then ['\\', 'r']
  else if c = '\n' then ['\\', 'n']
  else if c = '\x00' then ['\\', '0']
  else if c = quoteMark ∨ c = '\\' then ['\\', c]
  else if (isExtender c && !isSoundMark c) || isUnprintable c then escapeCode c
  else [c]

/-- A text between quotes, each of its characters as `escape` writes it. -/
def quote (s : String) : String :=
  String.ofList (quoteMark :: s.toList.flatMap escape ++ [quoteMark])

end Text

end Stencil
