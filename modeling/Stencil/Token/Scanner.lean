import Stencil.Token

/-!
# Scanning

Splits the source of a template into tokens.

A template is read in two modes. In literal mode everything is text up to the
next `[%`, which switches to expression mode; there words, numbers and signs are
read, blanks between them are skipped, and `%]` switches back. Literal text comes
in pieces, because a `[` that opens no tag is a piece by itself; `mergeText` puts
neighbouring pieces together.

Every token takes the longest run of characters it can. The scanner stops at the
end of the source or at the first character of an expression that starts no token.

## Main definitions

* `ScanError`: The character at which scanning failed, and where it stands.
* `Lexeme`: A token with the characters it was read from and those that follow.
* `literalLexeme?`, `expressionLexeme?`: The next token in each mode.
* `Scanner`: A mode and the source that is left.
* `Scanner.next`: One step of scanning.
* `Scanner.items`: All that the scanner yields.
* `scanSpanned`, `scan`: The tokens of a source, with and without their spans.
-/

namespace Stencil

/-- A character of an expression at which no token starts, and its first byte. -/
structure ScanError where
  found : Char
  start : Nat
deriving Repr, DecidableEq

namespace ScanError

/-- The bytes of the character. -/
def span (e : ScanError) : Span :=
  ⟨e.start, e.start + e.found.utf8Size⟩

/-- What went wrong, in words. -/
def message (e : ScanError) : String :=
  "unrecognized token `" ++ String.singleton e.found ++ "` in expression at " ++ e.span.shown

end ScanError

/-- A token at the start of some characters: those it was read from, and the rest. -/
structure Lexeme where
  token : Token
  chars : List Char
  rest : List Char
deriving Repr, DecidableEq

/-- The blanks that may stand between the tokens of an expression. -/
def isGap (c : Char) : Bool :=
  c == ' ' || c == '\t' || c == '\r' || c == '\n' || c == '\x0c' || c == '\x0b'

/-- A character that an identifier or a keyword may start with. -/
def isWordStart (c : Char) : Bool :=
  c.isLower

/-- A character that an identifier or a keyword may go on with. -/
def isWordPart (c : Char) : Bool :=
  c.isLower || c.isDigit

/-- The sign that a character is by itself. -/
def sign? : Char → Option Token
  | '[' => some .bracketOpen
  | ']' => some .bracketClose
  | ',' => some .comma
  | '*' => some (.operator .mul)
  | '+' => some (.operator .add)
  | '/' => some (.operator .div)
  | '-' => some (.operator .sub)
  | _ => none

/-- The token that a word is: a keyword if it is spelled like one. -/
def wordToken (word : String) : Token :=
  match Keyword.ofSpelling? word with
  | some k => .keyword k
  | none => .identifier word

/-- The next token in literal mode: the opening of a tag, a `[` that opens none, or a
    run of characters up to the next `[`. -/
def literalLexeme? : List Char → Option Lexeme
  | [] => none
  | '[' :: '%' :: rest => some ⟨.tagOpen, ['[', '%'], rest⟩
  | '[' :: rest => some ⟨.text "[", ['['], rest⟩
  | c :: rest =>
    let run := c :: rest.takeWhile (· != '[')
    some ⟨.text (String.ofList run), run, rest.dropWhile (· != '[')⟩

/-- The next token in expression mode, where the characters start with no blank. A
    number has no leading zeros, so a `0` is a number by itself. -/
def expressionLexeme? : List Char → Option Lexeme
  | [] => none
  | '%' :: ']' :: rest => some ⟨.tagClose, ['%', ']'], rest⟩
  | '0' :: rest => some ⟨.integer "0", ['0'], rest⟩
  | c :: rest =>
    if c.isDigit then
      let digits := c :: rest.takeWhile Char.isDigit
      some ⟨.integer (String.ofList digits), digits, rest.dropWhile Char.isDigit⟩
    else if isWordStart c then
      let word := c :: rest.takeWhile isWordPart
      some ⟨wordToken (String.ofList word), word, rest.dropWhile isWordPart⟩
    else
      (sign? c).map fun t => ⟨t, [c], rest⟩

/-- How the characters that come next are read. -/
inductive Mode
  | literal
  | expression
deriving Repr, DecidableEq

namespace Mode

/-- The mode after a token: the two ends of a tag switch it, nothing else does. -/
def after (m : Mode) : Token → Mode
  | .tagOpen => expression
  | .tagClose => literal
  | _ => m

end Mode

/-- The source that is left to scan: how it is read, the byte it starts at, and its
    characters. -/
structure Scanner where
  mode : Mode
  offset : Nat
  rest : List Char
deriving Repr, DecidableEq

/-- What one step of scanning yields. -/
abbrev ScanItem := Except ScanError Spanned

namespace Scanner

/-- A scanner in front of a whole source. -/
def ofString (source : String) : Scanner :=
  ⟨.literal, 0, source.toList⟩

/-- The scanner after a lexeme that starts at its offset, and the token with its span. -/
def accept (mode : Mode) (offset : Nat) (l : Lexeme) : Option ScanItem × Scanner :=
  let stop := offset + byteLength l.chars
  (some (.ok ⟨l.token, ⟨offset, stop⟩⟩), ⟨mode.after l.token, stop, l.rest⟩)

/-- The scanner in front of the next token: in an expression, past the blanks. -/
def skipGap (s : Scanner) : Scanner :=
  match s.mode with
  | .literal => s
  | .expression =>
    ⟨.expression, s.offset + byteLength (s.rest.takeWhile isGap), s.rest.dropWhile isGap⟩

/-- The next token of the mode, at the very start of what is left. -/
def lexeme? (s : Scanner) : Option Lexeme :=
  match s.mode with
  | .literal => literalLexeme? s.rest
  | .expression => expressionLexeme? s.rest

/-- One step of scanning: the next token with its span, or the character at which
    none starts, or nothing at the end. After an error nothing is left. -/
def next (s : Scanner) : Option ScanItem × Scanner :=
  let s := s.skipGap
  match s.rest with
  | [] => (none, s)
  | c :: _ =>
    match s.lexeme? with
    | some l => accept s.mode s.offset l
    | none => (some (.error ⟨c, s.offset⟩), { s with rest := [] })

theorem length_dropWhile_le {α : Type} (p : α → Bool) (l : List α) :
    (l.dropWhile p).length ≤ l.length :=
  (List.dropWhile_suffix p).length_le

/-- In literal mode a token takes at least one character. -/
theorem literalLexeme?_length_lt {cs : List Char} {l : Lexeme} (h : literalLexeme? cs = some l) :
    l.rest.length < cs.length := by
  have hdrop := length_dropWhile_le (α := Char) (· != '[')
  unfold literalLexeme? at h
  split at h <;> simp only [Option.some.injEq, reduceCtorEq] at h <;> subst h
  · simp only [List.length_cons]
    omega
  · simp only [List.length_cons]
    omega
  · rename_i rest _ _
    have := hdrop rest
    simp only [List.length_cons]
    omega

/-- In expression mode a token takes at least one character. -/
theorem expressionLexeme?_length_lt {cs : List Char} {l : Lexeme}
    (h : expressionLexeme? cs = some l) : l.rest.length < cs.length := by
  unfold expressionLexeme? at h
  split at h
  · simp only [reduceCtorEq] at h
  · simp only [Option.some.injEq] at h
    subst h
    simp only [List.length_cons]
    omega
  · simp only [Option.some.injEq] at h
    subst h
    simp only [List.length_cons]
    omega
  · rename_i c rest _ _
    split at h
    · simp only [Option.some.injEq] at h
      subst h
      have := length_dropWhile_le Char.isDigit rest
      simp only [List.length_cons]
      omega
    · split at h
      · simp only [Option.some.injEq] at h
        subst h
        have := length_dropWhile_le isWordPart rest
        simp only [List.length_cons]
        omega
      · rcases Option.map_eq_some_iff.mp h with ⟨t, _, rfl⟩
        simp only [List.length_cons]
        omega

/-- Skipping blanks leaves no more characters than before. -/
theorem skipGap_length_le (s : Scanner) : s.skipGap.rest.length ≤ s.rest.length := by
  unfold skipGap
  split
  · exact Nat.le_refl _
  · exact length_dropWhile_le _ _

/-- The next token takes at least one character. -/
theorem lexeme?_length_lt {s : Scanner} {l : Lexeme} (h : s.lexeme? = some l) :
    l.rest.length < s.rest.length := by
  unfold lexeme? at h
  split at h
  · exact literalLexeme?_length_lt h
  · exact expressionLexeme?_length_lt h

/-- A step that yields something leaves fewer characters than before. This is why
    scanning comes to an end. -/
theorem next_length_lt {s s' : Scanner} {item : ScanItem} (h : s.next = (some item, s')) :
    s'.rest.length < s.rest.length := by
  have hgap := skipGap_length_le s
  simp only [next] at h
  split at h
  · simp only [Prod.mk.injEq, reduceCtorEq, false_and] at h
  · rename_i c cs hrest
    -- An error leaves nothing, and there was at least the character it is about.
    have hpos : 0 < s.skipGap.rest.length := by
      rw [hrest]
      exact Nat.succ_pos _
    split at h
    · rename_i l hl
      have hlt := lexeme?_length_lt hl
      simp only [accept, Prod.mk.injEq] at h
      rw [← h.2]
      exact Nat.lt_of_lt_of_le hlt hgap
    · simp only [Prod.mk.injEq] at h
      rw [← h.2]
      exact Nat.lt_of_lt_of_le hpos hgap

/-- All that the scanner yields, step after step. -/
def items (s : Scanner) : List ScanItem :=
  match _h : s.next with
  | (none, _) => []
  | (some item, s') => item :: items s'
termination_by s.rest.length
decreasing_by exact next_length_lt (by assumption)

end Scanner

/-- Puts a token in front of tokens whose pieces of text are already together. -/
def consMerged (t : Spanned) (rest : List Spanned) : List Spanned :=
  match t.token, rest with
  | .text a, ⟨.text b, s⟩ :: more => ⟨.text (a ++ b), ⟨t.span.start, s.stop⟩⟩ :: more
  | _, _ => t :: rest

/-- Puts neighbouring pieces of literal text together. -/
def mergeText (tokens : List Spanned) : List Spanned :=
  tokens.foldr consMerged []

/-- The tokens that were read, or the error that scanning ended with. -/
def collect : List ScanItem → Except ScanError (List Spanned)
  | [] => .ok []
  | .error e :: _ => .error e
  | .ok t :: items =>
    match collect items with
    | .ok ts => .ok (t :: ts)
    | .error e => .error e

/-- The tokens of a source with their spans, literal text in runs as long as can be. -/
def scanSpanned (source : String) : Except ScanError (List Spanned) :=
  match collect (Scanner.ofString source).items with
  | .ok ts => .ok (mergeText ts)
  | .error e => .error e

/-- The tokens of a source. -/
def scan (source : String) : Except ScanError (List Token) :=
  match scanSpanned source with
  | .ok ts => .ok (ts.map Spanned.token)
  | .error e => .error e

end Stencil
