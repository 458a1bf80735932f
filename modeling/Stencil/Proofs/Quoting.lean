import Stencil.Proofs.Numeral
import Stencil.Text.Shown

/-!
# Quoted Text on a Line

A quoted text is on one line and can be read back. Line ends have escapes, and so has
whatever could be taken for an escape or for the end of the text.

A reader goes through the characters between the quotes one by one. What a character means
depends on those in front of it, and this is no more than the `Place` that the reader is at:
among plain characters, behind a backslash, or in front of or among the digits of a code
point. Each escape leads the reader from a plain place back to one and gives the character
that was written so, whatever follows, so a text is read back one character at a time. Only
the closing quote has no backslash in front of it, and nothing may follow it.

## Main definitions

* `Text.Place`: Where a reader of quoted text is.
* `Text.unescape`: The characters that are written from a place up to the closing quote.
* `Text.unquote?`: The text of a quoted text.

## Theorems

* `Text.not_mem_quote`: A quoted text is on one line.
* `Text.unescape_code`: The digits of a code point are read up to the brace.
* `Text.unescape_escape`: Each character is read back from what it is written as.
* `Text.unquote?_quote`: A text is read back from its quoted form.
-/

namespace Stencil

namespace Text

/-- Where a reader of quoted text is. -/
inductive Place
  | plain
  /-- Behind a backslash. -/
  | escaped
  /-- In front of the brace that opens a code point. -/
  | brace
  /-- Among the digits of a code point, the number so far. -/
  | code (value : Nat)

/-- The number that a lower-case hexadecimal digit stands for. -/
def hexDigit (c : Char) : Nat :=
  if c.isDigit then c.toNat - '0'.toNat else c.toNat - 'a'.toNat + 10

/-- The character that a letter behind a backslash stands for. -/
def unescaped (c : Char) : Char :=
  if c = 't' then '\t'
  else if c = 'r' then '\r'
  else if c = 'n' then '\n'
  else if c = '0' then '\x00'
  else c

/-- The characters that are written from a place up to the closing quote. There are none
    where the quote is missing, or is not the last character. -/
def unescape : Place → List Char → Option (List Char)
  | _, [] => none
  | .plain, c :: cs =>
    if c = quoteMark then if cs = [] then some [] else none
    else if c = '\\' then unescape .escaped cs
    else (unescape .plain cs).map (c :: ·)
  | .escaped, c :: cs =>
    if c = 'u' then unescape .brace cs
    else (unescape .plain cs).map (unescaped c :: ·)
  | .brace, _ :: cs => unescape (.code 0) cs
  | .code value, c :: cs =>
    if c = '\x7d' then (unescape .plain cs).map (Char.ofNat value :: ·)
    else unescape (.code (16 * value + hexDigit c)) cs

/-- The text of a quoted text. -/
def unquote? : List Char → Option String
  | [] => none
  | c :: cs => if c = quoteMark then (unescape .plain cs).map String.ofList else none

theorem not_mem_hexadecimal {c : Char} (h : ∀ d < 16, Nat.digitChar d ≠ c) (n : Nat) :
    c ∉ hexadecimal n := by
  intro hmem
  exact forall_mem_digits (P := (· ≠ c)) (by decide) hexadecimal_eq h n c hmem rfl

/-- Texts on one line are on one line together. -/
theorem not_mem_append {s t : String} (hs : '\n' ∉ s.toList) (ht : '\n' ∉ t.toList) :
    '\n' ∉ (s ++ t).toList := by
  rw [String.toList_append, List.mem_append]
  exact not_or.mpr ⟨hs, ht⟩

theorem not_mem_ofNat (n : Nat) : '\n' ∉ (ofNat n).toList := by
  rw [ofNat, String.toList_ofList]
  exact fun h => absurd ((isNumeral_decimal n).2 '\n' h) (by decide)

theorem not_mem_showInteger (n : Int64) : '\n' ∉ (showInteger n).toList := by
  unfold showInteger ofInt
  split
  · rw [String.toList_ofList, List.mem_cons, not_or]
    exact ⟨by decide, fun h => absurd ((isNumeral_decimal _).2 '\n' h) (by decide)⟩
  · exact not_mem_ofNat _

/-- However a character is written between quotes, it is on one line. -/
theorem not_mem_escape (c : Char) : '\n' ∉ escape c := by
  unfold escape
  split
  · decide
  split
  · decide
  split
  · decide
  split
  · decide
  rename_i hfeed _
  split
  · -- The quote mark and the backslash are written as themselves.
    rw [List.mem_cons, List.mem_singleton, not_or]
    exact ⟨by decide, Ne.symm hfeed⟩
  split
  · rw [escapeCode, List.mem_append, List.mem_append]
    rintro ((h | h) | h)
    · exact absurd h (by decide)
    · exact not_mem_hexadecimal (by decide) _ h
    · exact absurd h (by decide)
  · rw [List.mem_singleton]
    exact Ne.symm hfeed

/-- A quoted text is on one line. -/
theorem not_mem_quote (s : String) : '\n' ∉ (quote s).toList := by
  have hmark : '\n' ≠ quoteMark := by decide
  rw [quote, String.toList_ofList, List.cons_append, List.mem_cons, List.mem_append,
    List.mem_flatMap, List.mem_singleton]
  rintro (h | ⟨c, _, h⟩ | h)
  · exact hmark h
  · exact not_mem_escape c h
  · exact hmark h

section

variable {rest : List Char}

/-- The digits of a code point are read up to the brace that closes it. -/
theorem unescape_code {digits : List Char} (h : '\x7d' ∉ digits) (value : Nat) :
    unescape (.code value) (digits ++ '\x7d' :: rest) =
      (unescape .plain rest).map
        (Char.ofNat (digits.foldl (fun v c => 16 * v + hexDigit c) value) :: ·) := by
  induction digits generalizing value with
  | nil => rw [List.nil_append, unescape, if_pos rfl, List.foldl_nil]
  | cons c digits ih =>
      rw [List.mem_cons, not_or] at h
      rw [List.cons_append, unescape, if_neg (Ne.symm h.1), ih h.2, List.foldl_cons]

/-- A code point is read back. -/
theorem unescape_escapeCode (c : Char) :
    unescape .plain (escapeCode c ++ rest) = (unescape .plain rest).map (c :: ·) := by
  have hvalue : (hexadecimal c.toNat).foldl (fun v d => 16 * v + hexDigit d) 0 = c.toNat :=
    foldl_digits (by decide) hexadecimal_eq (by decide) c.toNat
  -- The brace is no digit.
  have hcode := @unescape_code rest _ (not_mem_hexadecimal (by decide) c.toNat) 0
  rw [hvalue, Char.ofNat_toNat] at hcode
  rw [escapeCode, List.append_assoc, List.append_assoc]
  exact hcode

/-- Each character is read back from what it is written as between quotes. -/
theorem unescape_escape (c : Char) :
    unescape .plain (escape c ++ rest) = (unescape .plain rest).map (c :: ·) := by
  by_cases hletter : c = '\t' ∨ c = '\r' ∨ c = '\n' ∨ c = '\x00'
  · -- These have a letter behind the backslash.
    rcases hletter with rfl | rfl | rfl | rfl <;> rfl
  by_cases hmark : c = quoteMark ∨ c = '\\'
  · -- These stand behind it themselves, and are no such letter.
    rcases hmark with rfl | rfl <;> rfl
  rw [not_or, not_or, not_or] at hletter
  rw [escape, if_neg hletter.1, if_neg hletter.2.1, if_neg hletter.2.2.1, if_neg hletter.2.2.2,
    if_neg hmark]
  rw [not_or] at hmark
  split
  · exact unescape_escapeCode c
  · -- A plain character is no backslash, so the reader stays where it is.
    rw [List.singleton_append, unescape, if_neg hmark.1, if_neg hmark.2]

/-- The characters of a text are read back up to the closing quote. -/
theorem unescape_flatMap (cs : List Char) :
    unescape .plain (cs.flatMap escape ++ [quoteMark]) = some cs := by
  induction cs with
  | nil => rfl
  | cons c cs ih =>
      rw [List.flatMap_cons, List.append_assoc, unescape_escape, ih, Option.map_some]

/-- A text is read back from its quoted form. -/
theorem unquote?_quote (s : String) : unquote? (quote s).toList = some s := by
  rw [quote, String.toList_ofList, List.cons_append, unquote?, if_pos rfl, unescape_flatMap,
    Option.map_some, String.ofList_toList]

end

end Text

end Stencil
