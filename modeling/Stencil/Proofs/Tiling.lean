import Stencil.Token.Scanner

/-!
# Tilings of a Source

When some tokens with their spans are a correct reading of a source.

A source is tiled by tokens like a strip by tiles. Every tile is a token as it is
written, literal text as it is and all else as a message quotes it. Outside of the tags
the tiles leave no gap, and between the tokens of an expression there may be blanks.
`Tiles` says so for what is left of a source, from a byte on. Nothing is said about how
the tokens are found: a tile is not required to be the longest one, but only not to run
into the next.

Two tokens run into each other where they would be read as others without a gap between
them. This is so for a word and another word or number behind it, and for a number and
another number behind it, except for a `0`, which is never the start of a longer number.

## Main definitions

* `Token.written`: The text that a token stands for in a source.
* `Token.WellFormed`: What a token carries can be written.
* `Token.mode`: The mode that a token is read in.
* `Token.Joins`: Two tokens that must not stand next to each other without a gap.
* `Arranged`: Tokens may follow each other in some source.
* `Tiles`: Tokens with their spans cover the rest of a source.

## Theorems

* `wellFormed_of_arranged`: Each of the tokens that may follow each other can be written.
* `Tiles.le_start`: No tile starts before the rest of the source.
* `Tiles.of_gap`: Blanks in front of a tiling leave it one.
-/

namespace Stencil

/-- The text is a number without leading zeros. -/
def IsNumber (s : String) : Prop :=
  s = "0" ∨ ∃ c cs, s.toList = c :: cs ∧ c.isDigit ∧ c ≠ '0' ∧ ∀ d ∈ cs, d.isDigit

/-- The text is a small letter with any number of small letters and digits behind it. -/
def IsWord (s : String) : Prop :=
  ∃ c cs, s.toList = c :: cs ∧ c.isLower ∧ ∀ d ∈ cs, d.isLower ∨ d.isDigit

namespace Token

/-- The text that a token stands for in a source. -/
def written : Token → String
  | text s => s
  | t => t.shown

/-- What a token carries can be written: a text that opens no tag, a number without
    leading zeros, a word that is no keyword. -/
def WellFormed : Token → Prop
  | text s => s ≠ "" ∧ ¬ ['[', '%'] <:+: s.toList
  | integer digits => IsNumber digits
  | identifier name => IsWord name ∧ ∀ k : Keyword, k.spelling ≠ name
  | _ => True

/-- The mode that a token is read in. -/
def mode : Token → Mode
  | text _ => .literal
  | tagOpen => .literal
  | _ => .expression

/-- Literal text. -/
def isText : Token → Bool
  | text _ => true
  | _ => false

/-- A keyword or an identifier. -/
def isWord : Token → Bool
  | keyword _ => true
  | identifier _ => true
  | _ => false

def isInteger : Token → Bool
  | integer _ => true
  | _ => false

/-- Without a gap between them, what the first token is written with would be read on
    into the second. -/
def Joins (t u : Token) : Prop :=
  (t.isWord ∧ (u.isWord ∨ u.isInteger)) ∨ (t.isInteger ∧ t ≠ integer "0" ∧ u.isInteger)

end Token

/-- The tokens may follow each other in some source: each is well formed and stands in
    its own mode, and no text stands behind another text. -/
def Arranged : Mode → List Token → Prop
  | _, [] => True
  | m, t :: ts =>
    t.mode = m ∧ t.WellFormed ∧ (∀ u ∈ ts.head?, ¬ (t.isText ∧ u.isText)) ∧
      Arranged (m.after t) ts

/-- Tokens that may follow each other in a source can be written. -/
theorem wellFormed_of_arranged {m : Mode} {ts : List Token} {t : Token} (h : Arranged m ts)
    (ht : t ∈ ts) : t.WellFormed := by
  induction ts generalizing m with
  | nil => exact nomatch ht
  | cons u ts ih =>
      rcases List.mem_cons.mp ht with rfl | ht
      · exact h.2.1
      · exact ih h.2.2.2 ht

/-- A token that stops at a byte is kept apart from the next: texts would be one text,
    and tokens that join have a gap between them. -/
def Separate (t : Token) (stop : Nat) (ts : List Spanned) : Prop :=
  ∀ u ∈ ts.head?, ¬ (t.isText ∧ u.token.isText) ∧ (t.Joins u.token → stop < u.span.start)

/-- No text stands behind a text. -/
theorem Separate.not_isText {s : String} {stop : Nat} {ts : List Spanned}
    (h : Separate (.text s) stop ts) : ∀ u ∈ ts.head?, ¬ u.token.isText :=
  fun u hu htext => (h u hu).1 ⟨rfl, htext⟩

/-- The tokens with their spans cover the characters that are left of a source, which
    start at a byte and are read in a mode. -/
inductive Tiles : Mode → Nat → List Char → List Spanned → Prop
  | done {m k} : Tiles m k [] []
  | gap {k c cs ts} : isGap c → Tiles .expression (k + c.utf8Size) cs ts →
    Tiles .expression k (c :: cs) ts
  | token {m k t cs ts} : t.mode = m → t.WellFormed →
    Separate t (k + byteLength t.written.toList) ts →
    Tiles (m.after t) (k + byteLength t.written.toList) cs ts →
    Tiles m k (t.written.toList ++ cs) (⟨t, k, k + byteLength t.written.toList⟩ :: ts)

@[simp]
theorem byteLength_nil : byteLength [] = 0 := rfl

@[simp]
theorem byteLength_cons (c : Char) (cs : List Char) :
    byteLength (c :: cs) = c.utf8Size + byteLength cs := rfl

@[simp]
theorem byteLength_append (cs ds : List Char) :
    byteLength (cs ++ ds) = byteLength cs + byteLength ds := by
  induction cs with
  | nil => rw [List.nil_append, byteLength_nil, Nat.zero_add]
  | cons c cs ih => rw [List.cons_append, byteLength_cons, byteLength_cons, ih, Nat.add_assoc]

theorem byteLength_pos {cs : List Char} (h : cs ≠ []) : 0 < byteLength cs := by
  cases cs with
  | nil => exact absurd rfl h
  | cons c cs =>
      rw [byteLength_cons]
      exact Nat.add_pos_left c.utf8Size_pos _

namespace Tiles

variable {m : Mode} {k : Nat} {cs : List Char} {ts : List Spanned}

/-- No tile starts before the rest of the source. -/
theorem le_start (h : Tiles m k cs ts) : ∀ t ∈ ts, k ≤ t.span.start := by
  induction h with
  | done => nofun
  | gap _ _ ih => exact fun t ht => Nat.le_trans (Nat.le_add_right _ _) (ih t ht)
  | token _ _ _ _ ih =>
      intro t ht
      rcases List.mem_cons.mp ht with rfl | ht
      · exact Nat.le_refl _
      · exact Nat.le_trans (Nat.le_add_right _ _) (ih t ht)

/-- Blanks in front of a tiling leave it one. -/
theorem of_gap {g : List Char} (hg : ∀ c ∈ g, isGap c)
    (h : Tiles .expression (k + byteLength g) cs ts) : Tiles .expression k (g ++ cs) ts := by
  -- The blanks are counted off one by one, and the start moves with them.
  induction g generalizing k with
  | nil => exact h
  | cons c g ih =>
      rw [byteLength_cons, ← Nat.add_assoc] at h
      exact .gap (hg c List.mem_cons_self) (ih (fun d hd => hg d (List.mem_cons_of_mem _ hd)) h)

end Tiles

end Stencil
