import Mathlib.Data.List.TakeWhile
import Stencil.Proofs.Tiling

/-!
# Lexemes

What the next token is, in each of the two modes.

In an expression the next token is the one whose written form the characters start with
and do not go on with. Both together leave no choice, though the scanner looks at the
first character only and then takes all it can: `expressionLexeme?_eq_some_iff` says
that this finds the token wherever there is one.

In literal mode it is the opening of a tag or a piece of text. A piece is all that
comes up to the next `[`, or a `[` alone, so a text that holds one is read in pieces.

## Main definitions

* `Token.Ends`: What follows a token does not go on with it.
* `IsPiece`: The characters are the next piece of text.

## Theorems

* `Token.written_eq_cons`: The first character tells what kind a token is of.
* `Token.ends_written_iff`: A token goes on into the next exactly where the two join.
* `expressionLexeme?_eq_some_iff`: The next token of an expression.
* `spec_of_literalLexeme?`: The next token in literal mode.
* `literalLexeme?_piece`: A piece of text is taken as the next token.
* `exists_piece`: A text that opens no tag starts with a piece.
-/

namespace Stencil

/-- The characters behind a token do not go on with it: behind a word there is no letter
    or digit, and behind a number other than `0` there is no digit. -/
def Token.Ends (t : Token) (rest : List Char) : Prop :=
  ∀ c ∈ rest.head?, (t.isWord → ¬ isWordPart c) ∧ (t.isInteger → t ≠ .integer "0" → ¬ c.isDigit)

section Characters

theorem isWordPart_iff {c : Char} : isWordPart c ↔ c.isLower ∨ c.isDigit := by
  rw [isWordPart, Bool.or_eq_true]

theorem not_isDigit_of_isLower {c : Char} (h : c.isLower) : ¬ c.isDigit := by
  intro hdigit
  -- The letters start behind the digits.
  have hlower : 97 ≤ c.toNat := (UInt32.le_iff_toNat_le.mp (of_decide_eq_true
    (Bool.and_eq_true_iff.mp h).1))
  have hle : c.toNat ≤ 57 := (Char.isDigit_iff_toNat.mp hdigit).2
  omega

theorem not_isWordPart_of_isGap {c : Char} (h : isGap c) : ¬ isWordPart c := by
  simp only [isGap, Bool.or_eq_true, beq_iff_eq] at h
  rcases h with ((((rfl | rfl) | rfl) | rfl) | rfl) | rfl <;> decide

variable {p : Char → Bool} {w rest : List Char}

/-- Characters with a property come up to the first one without it. -/
theorem takeWhile_append_eq (hw : ∀ c ∈ w, p c) (hrest : ∀ c ∈ rest.head?, ¬ p c) :
    (w ++ rest).takeWhile p = w := by
  rw [List.takeWhile_append_of_pos hw]
  cases rest with
  | nil => exact List.append_nil _
  | cons c rest => rw [List.takeWhile_cons_of_neg (hrest c rfl), List.append_nil]

theorem dropWhile_append_eq (hw : ∀ c ∈ w, p c) (hrest : ∀ c ∈ rest.head?, ¬ p c) :
    (w ++ rest).dropWhile p = rest := by
  rw [List.dropWhile_append_of_pos hw]
  cases rest with
  | nil => rfl
  | cons c rest => rw [List.dropWhile_cons_of_neg (hrest c rfl)]

theorem not_of_mem_head?_dropWhile {c : Char} {cs : List Char} (h : c ∈ (cs.dropWhile p).head?) :
    ¬ p c := by
  have hnot := List.head?_dropWhile_not p cs
  rw [Option.mem_def.mp h] at hnot
  exact (Bool.not_eq_true _).mpr hnot

theorem eq_of_mem_head?_dropWhile {c d : Char} {cs : List Char}
    (h : d ∈ (cs.dropWhile (· != c)).head?) : d = c :=
  not_not.mp fun hne => not_of_mem_head?_dropWhile h (bne_iff_ne.mpr hne)

end Characters

section Words

theorem Token.written_tagClose : tagClose.written.toList = ['%', ']'] := rfl

theorem Token.written_integer_zero : (integer "0").written.toList = ['0'] := rfl

theorem Keyword.ofSpelling?_spelling (k : Keyword) : ofSpelling? k.spelling = some k := by
  cases k <;> rfl

theorem Keyword.spelling_of_ofSpelling? {word : String} {k : Keyword}
    (h : ofSpelling? word = some k) : k.spelling = word :=
  beq_iff_eq.mp (List.find?_some (p := fun k : Keyword => k.spelling == word) h)

theorem isWord_of_all {s : String} {c : Char} {cs : List Char} (hchars : s.toList = c :: cs)
    (hlower : c.isLower) (hall : cs.all isWordPart) : IsWord s :=
  ⟨c, cs, hchars, hlower, fun d hd => isWordPart_iff.mp (List.all_eq_true.mp hall d hd)⟩

theorem Keyword.isWord_spelling (k : Keyword) : IsWord k.spelling := by
  cases k <;> exact isWord_of_all rfl rfl rfl

/-- A word is a keyword or an identifier, and is written as it is. -/
theorem wordToken_spec {word : String} (h : IsWord word) :
    (wordToken word).mode = .expression ∧ (wordToken word).WellFormed ∧
      (wordToken word).isWord ∧ (wordToken word).written = word := by
  unfold wordToken
  split
  · rename_i k hk
    exact ⟨rfl, trivial, rfl, Keyword.spelling_of_ofSpelling? hk⟩
  · -- Looking a keyword up by its spelling finds it, so the word is none.
    rename_i hnone
    refine ⟨rfl, ⟨h, fun k hk => ?_⟩, rfl, rfl⟩
    rw [← hk, Keyword.ofSpelling?_spelling] at hnone
    exact nomatch hnone

theorem wordToken_written {t : Token} (hword : t.isWord) (hwf : t.WellFormed) :
    IsWord t.written ∧ wordToken t.written = t := by
  cases t with
  | keyword k =>
      refine ⟨k.isWord_spelling, ?_⟩
      rw [show (Token.keyword k).written = k.spelling from rfl, wordToken,
        Keyword.ofSpelling?_spelling]
  | identifier name =>
      refine ⟨hwf.1, ?_⟩
      rw [show (Token.identifier name).written = name from rfl, wordToken]
      cases h : Keyword.ofSpelling? name with
      | none => rfl
      | some k => exact absurd (Keyword.spelling_of_ofSpelling? h) (hwf.2 k)
  | _ => exact nomatch hword

end Words

section Neighbours

/-- The first character of a token of an expression tells whether it is a word, a number
    or a sign. -/
theorem Token.written_eq_cons {t : Token} (hmode : t.mode = .expression) (hwf : t.WellFormed) :
    ∃ c cs, t.written.toList = c :: cs ∧ ¬ isGap c ∧ (isWordPart c ↔ t.isWord ∨ t.isInteger) ∧
      (c.isDigit ↔ t.isInteger) := by
  cases t with
  | text _ | tagOpen => exact nomatch hmode
  | keyword _ | identifier _ =>
      rcases (wordToken_written rfl hwf).1 with ⟨c, cs, hchars, hlower, _⟩
      have hpart := isWordPart_iff.mpr (.inl hlower)
      refine ⟨c, cs, hchars, fun hgap => not_isWordPart_of_isGap hgap hpart, ?_, ?_⟩
      · exact ⟨fun _ => .inl rfl, fun _ => hpart⟩
      · exact ⟨fun hdigit => absurd hdigit (not_isDigit_of_isLower hlower), nofun⟩
  | integer digits =>
      -- Both forms of a number start with a digit.
      have hfirst : ∃ c cs, digits.toList = c :: cs ∧ c.isDigit := by
        rcases hwf with rfl | ⟨c, cs, hchars, hdigit, _⟩
        · exact ⟨'0', [], rfl, by decide⟩
        · exact ⟨c, cs, hchars, hdigit⟩
      rcases hfirst with ⟨c, cs, hchars, hdigit⟩
      have hpart := isWordPart_iff.mpr (.inr hdigit)
      refine ⟨c, cs, hchars, fun hgap => not_isWordPart_of_isGap hgap hpart, ?_, ?_⟩
      · exact ⟨fun _ => .inr rfl, fun _ => hpart⟩
      · exact ⟨fun _ => rfl, fun _ => hdigit⟩
  | operator op => cases op <;> exact ⟨_, _, rfl, by decide, by decide, by decide⟩
  | tagClose | bracketOpen | bracketClose | comma =>
      exact ⟨_, _, rfl, by decide, by decide, by decide⟩

theorem Token.written_ne_nil {t : Token} (hwf : t.WellFormed) : t.written.toList ≠ [] := by
  cases t with
  | text s => exact fun hnil => hwf.1 (String.toList_eq_nil_iff.mp hnil)
  | tagOpen => exact List.cons_ne_nil _ _
  | _ =>
      rcases Token.written_eq_cons rfl hwf with ⟨c, cs, hchars, _⟩
      rw [hchars]
      exact List.cons_ne_nil _ _

theorem Token.isText_of_mode {t : Token} (h : t.mode = .expression) : t.isText = false := by
  cases t with
  | text _ => exact nomatch h
  | _ => rfl

theorem Token.after_eq_expression {t : Token} (h : t.isWord ∨ t.isInteger) :
    Mode.expression.after t = .expression := by
  cases t with
  | tagClose => rcases h with h | h <;> exact nomatch h
  | _ => rfl

theorem Token.not_joins {t u : Token} (hword : t.isWord = false) (hinteger : t.isInteger = false) :
    ¬ t.Joins u := by
  rintro (⟨h, _⟩ | ⟨h, _⟩)
  · exact Bool.eq_false_iff.mp hword h
  · exact Bool.eq_false_iff.mp hinteger h

/-- A token goes on into another one right behind it exactly where the two join. -/
theorem Token.ends_written_iff {t u : Token} {cs : List Char} (hmode : u.mode = .expression)
    (hwf : u.WellFormed) : t.Ends (u.written.toList ++ cs) ↔ ¬ t.Joins u := by
  -- Going on is decided by one character, and that one tells what the second token is.
  rcases u.written_eq_cons hmode hwf with ⟨c, ds, hchars, _, hpart, hdigit⟩
  rw [hchars, List.cons_append]
  simp only [Ends, List.head?_cons, Option.mem_some_iff, forall_eq', hpart, hdigit, Joins,
    not_or, not_and]

end Neighbours

section Expression

variable {t : Token} {cs rest : List Char} {l : Lexeme}

theorem Token.ends_of_sign (hword : t.isWord = false) (hinteger : t.isInteger = false) :
    t.Ends rest := by
  intro c _
  rw [hword, hinteger]
  exact ⟨nofun, nofun⟩

/-- A sign is written as it is and cannot go on. -/
theorem sign?_spec {c : Char} (h : sign? c = some t) :
    t.mode = .expression ∧ t.WellFormed ∧ t.isWord = false ∧ t.isInteger = false ∧
      t.written.toList = [c] := by
  unfold sign? at h
  split at h <;> cases h <;> exact ⟨rfl, trivial, rfl, rfl, rfl⟩

/-- What is taken as the next token of an expression is written there and does not go
    on. -/
theorem spec_of_expressionLexeme? (h : expressionLexeme? cs = some l) :
    l.token.mode = .expression ∧ l.token.WellFormed ∧ l.token.Ends l.rest ∧
      l.token.written.toList = l.chars ∧ cs = l.chars ++ l.rest := by
  unfold expressionLexeme? at h
  split at h
  · cases h
  · cases h
    exact ⟨rfl, trivial, Token.ends_of_sign rfl rfl, Token.written_tagClose, rfl⟩
  · cases h
    -- A zero ends here, whatever comes behind it.
    exact ⟨rfl, .inl rfl, fun c _ => ⟨nofun, fun _ hne => absurd rfl hne⟩,
      Token.written_integer_zero, rfl⟩
  · rename_i c rest _ hzero
    split at h
    · -- A digit other than zero is read on up to the first character that is none.
      rename_i hdigit
      cases h
      refine ⟨rfl, .inr ⟨c, _, String.toList_ofList, hdigit, ?_, ?_⟩, ?_, String.toList_ofList, ?_⟩
      · rintro rfl
        exact hzero rfl
      · exact fun d hd => List.mem_takeWhile_imp hd
      · exact fun d hd => ⟨nofun, fun _ _ => not_of_mem_head?_dropWhile hd⟩
      · rw [List.cons_append, List.takeWhile_append_dropWhile]
    · split at h
      · -- A letter is read on up to the first character that belongs to no word.
        rename_i hlower
        cases h
        have hword : IsWord (String.ofList (c :: rest.takeWhile isWordPart)) :=
          ⟨c, _, String.toList_ofList, hlower,
            fun d hd => isWordPart_iff.mp (List.mem_takeWhile_imp hd)⟩
        rcases wordToken_spec hword with ⟨hmode, hwf, hisWord, hwritten⟩
        refine ⟨hmode, hwf, fun d hd => ?_, ?_, ?_⟩
        · have hnot := not_of_mem_head?_dropWhile hd
          exact ⟨fun _ => hnot, fun _ _ hdigit => hnot (isWordPart_iff.mpr (.inr hdigit))⟩
        · rw [hwritten, String.toList_ofList]
        · rw [List.cons_append, List.takeWhile_append_dropWhile]
      · rcases Option.map_eq_some_iff.mp h with ⟨t, hsign, rfl⟩
        rcases sign?_spec hsign with ⟨hmode, hwf, hword, hinteger, hwritten⟩
        exact ⟨hmode, hwf, Token.ends_of_sign hword hinteger, hwritten, rfl⟩

/-- What a letter or a digit other than `0` starts is all that it can be read on to. -/
theorem expressionLexeme?_cons {c : Char} (hpercent : c ≠ '%') (hzero : c ≠ '0') :
    expressionLexeme? (c :: cs) =
      if c.isDigit then
        some ⟨.integer (String.ofList (c :: cs.takeWhile Char.isDigit)),
          c :: cs.takeWhile Char.isDigit, cs.dropWhile Char.isDigit⟩
      else if isWordStart c then
        some ⟨wordToken (String.ofList (c :: cs.takeWhile isWordPart)),
          c :: cs.takeWhile isWordPart, cs.dropWhile isWordPart⟩
      else (sign? c).map fun t => ⟨t, [c], cs⟩ := by
  rw [expressionLexeme?]
  · exact fun rest hc _ => hpercent hc
  · exact hzero

theorem expressionLexeme?_word {word : String} (h : IsWord word)
    (hrest : ∀ c ∈ rest.head?, ¬ isWordPart c) :
    expressionLexeme? (word.toList ++ rest) = some ⟨wordToken word, word.toList, rest⟩ := by
  rcases h with ⟨c, cs, hchars, hlower, hall⟩
  have hparts : ∀ d ∈ cs, isWordPart d := fun d hd => isWordPart_iff.mpr (hall d hd)
  have hstart : isWordStart c := hlower
  have hpercent : c ≠ '%' := by
    rintro rfl
    exact absurd hlower (by decide)
  have hzero : c ≠ '0' := by
    rintro rfl
    exact absurd hlower (by decide)
  rw [hchars, List.cons_append, expressionLexeme?_cons hpercent hzero,
    if_neg (not_isDigit_of_isLower hlower), if_pos hstart, takeWhile_append_eq hparts hrest,
    dropWhile_append_eq hparts hrest, ← hchars, String.ofList_toList]

theorem expressionLexeme?_number {digits : String} (h : IsNumber digits)
    (hrest : (Token.integer digits).Ends rest) :
    expressionLexeme? (digits.toList ++ rest) = some ⟨.integer digits, digits.toList, rest⟩ := by
  rcases h with rfl | ⟨c, cs, hchars, hdigit, hzero, hall⟩
  · rfl
  · have hpercent : c ≠ '%' := by
      rintro rfl
      exact absurd hdigit (by decide)
    -- The number has another first digit than `0`, so it must not go on.
    have hnotZero : Token.integer digits ≠ .integer "0" := by
      rintro heq
      cases heq
      cases hchars
      exact hzero rfl
    have hstop : ∀ d ∈ rest.head?, ¬ d.isDigit := fun d hd => (hrest d hd).2 rfl hnotZero
    rw [hchars, List.cons_append, expressionLexeme?_cons hpercent hzero, if_pos hdigit,
      takeWhile_append_eq hall hstop, dropWhile_append_eq hall hstop, ← hchars,
      String.ofList_toList]

/-- A token that is written somewhere and does not go on is the next token there. -/
theorem expressionLexeme?_written (hmode : t.mode = .expression) (hwf : t.WellFormed)
    (hends : t.Ends rest) :
    expressionLexeme? (t.written.toList ++ rest) = some ⟨t, t.written.toList, rest⟩ := by
  cases t with
  | text _ | tagOpen => cases hmode
  | keyword _ | identifier _ =>
      rcases wordToken_written rfl hwf with ⟨hword, htoken⟩
      rw [expressionLexeme?_word hword fun c hc => (hends c hc).1 rfl, htoken]
  | integer digits => exact expressionLexeme?_number hwf hends
  | operator op => cases op <;> rfl
  | tagClose | bracketOpen | bracketClose | comma => rfl

/-- The next token of an expression is the one that is written there and does not go
    on. -/
theorem expressionLexeme?_eq_some_iff :
    expressionLexeme? cs = some l ↔
      l.token.mode = .expression ∧ l.token.WellFormed ∧ l.token.Ends l.rest ∧
        l.token.written.toList = l.chars ∧ cs = l.chars ++ l.rest := by
  refine ⟨spec_of_expressionLexeme?, ?_⟩
  rintro ⟨hmode, hwf, hends, hwritten, rfl⟩
  rw [← hwritten, expressionLexeme?_written hmode hwf hends, hwritten]

end Expression

section Literal

/-- The characters are the next piece of text in front of others: a `[` that opens no tag,
    or all that comes up to the next `[`. -/
def IsPiece (piece rest : List Char) : Prop :=
  (piece = ['['] ∧ '%' ∉ rest.head?) ∨
    (piece ≠ [] ∧ '[' ∉ piece ∧ ∀ c ∈ rest.head?, c = '[')

variable {cs rest piece w : List Char} {l : Lexeme}

theorem IsPiece.ne_nil (h : IsPiece piece rest) : piece ≠ [] := by
  rcases h with ⟨rfl, _⟩ | ⟨hnil, _⟩
  · exact List.cons_ne_nil _ _
  · exact hnil

/-- No tag opens where a piece of text ends. -/
theorem IsPiece.not_infix (h : IsPiece piece (w ++ rest)) (htext : ¬ ['[', '%'] <:+: w) :
    ¬ ['[', '%'] <:+: piece ++ w := by
  rcases h with ⟨rfl, hpercent⟩ | ⟨-, hbracket, -⟩
  · -- The bracket alone has no percent sign behind it.
    rw [List.singleton_append, List.infix_cons_iff]
    rintro (hfront | hinside)
    · rcases (List.cons_prefix_cons.mp hfront).2 with ⟨ds, hds⟩
      exact hpercent (by rw [← hds]; rfl)
    · exact htext hinside
  · -- Without a bracket in the piece no tag can open in it.
    induction piece with
    | nil => exact htext
    | cons c cs ih =>
        rw [List.cons_append, List.infix_cons_iff]
        rintro (hfront | hinside)
        · exact hbracket ((List.cons_prefix_cons.mp hfront).1 ▸ List.mem_cons_self)
        · exact ih (fun hmem => hbracket (List.mem_cons_of_mem _ hmem)) hinside

/-- What is taken as the next token in literal mode opens a tag or is a piece of text. -/
theorem spec_of_literalLexeme? (h : literalLexeme? cs = some l) :
    (l.token = .tagOpen ∧ l.chars = ['[', '%'] ∨
        l.token = .text (String.ofList l.chars) ∧ IsPiece l.chars l.rest) ∧
      cs = l.chars ++ l.rest := by
  unfold literalLexeme? at h
  split at h
  · cases h
  · cases h
    exact ⟨.inl ⟨rfl, rfl⟩, rfl⟩
  · -- The bracket stands alone, since no percent sign is behind it.
    rename_i rest hopen
    cases h
    refine ⟨.inr ⟨rfl, .inl ⟨rfl, fun hpercent => ?_⟩⟩, rfl⟩
    rcases List.head?_eq_some_iff.mp hpercent with ⟨ds, rfl⟩
    exact hopen ds rfl
  · -- The run stops in front of the next bracket.
    rename_i c rest _ hbracket
    cases h
    refine ⟨.inr ⟨rfl, .inr ⟨List.cons_ne_nil _ _, fun hmem => ?_, fun d hd => ?_⟩⟩, ?_⟩
    · rcases List.mem_cons.mp hmem with rfl | hmem
      · exact hbracket rfl
      · exact absurd (List.mem_takeWhile_imp hmem) (by decide)
    · exact eq_of_mem_head?_dropWhile hd
    · rw [List.cons_append, List.takeWhile_append_dropWhile]

theorem literalLexeme?_piece (h : IsPiece piece rest) :
    literalLexeme? (piece ++ rest) = some ⟨.text (String.ofList piece), piece, rest⟩ := by
  rcases h with ⟨rfl, hpercent⟩ | ⟨hnil, hbracket, hrest⟩
  · rw [List.singleton_append, literalLexeme?]
    rintro ds rfl
    exact hpercent rfl
  · rcases piece with _ | ⟨c, cs⟩
    · exact absurd rfl hnil
    · have hc : c ≠ '[' := fun hc => hbracket (hc ▸ List.mem_cons_self)
      have hcs : ∀ d ∈ cs, d != '[' := by
        rintro d hd
        exact bne_iff_ne.mpr fun h => hbracket (h ▸ List.mem_cons_of_mem _ hd)
      have hstop : ∀ d ∈ rest.head?, ¬ (d != '[') := by
        rintro d hd hne
        exact bne_iff_ne.mp hne (hrest d hd)
      rw [List.cons_append, literalLexeme?]
      · simp only [takeWhile_append_eq hcs hstop, dropWhile_append_eq hcs hstop]
      · exact fun _ h _ => hc h
      · exact hc

/-- A text that opens no tag, with the opening of a tag or nothing behind it, starts with
    a piece. -/
theorem exists_piece (hnil : w ≠ []) (htext : ¬ ['[', '%'] <:+: w)
    (hrest : ∀ c ∈ rest.head?, c = '[') :
    ∃ piece w', w = piece ++ w' ∧ IsPiece piece (w' ++ rest) := by
  rcases w with _ | ⟨c, cs⟩
  · exact absurd rfl hnil
  · by_cases hc : c = '['
    · subst hc
      -- Behind the bracket is no percent sign, neither in the text nor in what follows.
      refine ⟨['['], cs, rfl, .inl ⟨rfl, fun hpercent => ?_⟩⟩
      cases cs with
      | nil => exact absurd (hrest _ hpercent) (by decide)
      | cons d ds =>
          cases Option.some.inj hpercent
          exact htext ⟨[], ds, rfl⟩
    · refine ⟨c :: cs.takeWhile (· != '['), cs.dropWhile (· != '['), ?_,
        .inr ⟨List.cons_ne_nil _ _, fun hmem => ?_, fun d hd => ?_⟩⟩
      · rw [List.cons_append, List.takeWhile_append_dropWhile]
      · rcases List.mem_cons.mp hmem with rfl | hmem
        · exact hc rfl
        · exact absurd (List.mem_takeWhile_imp hmem) (by decide)
      · -- The run ends at a bracket of the text, or at one behind the text.
        cases hdrop : cs.dropWhile (· != '[') with
        | nil =>
            rw [hdrop] at hd
            exact hrest d hd
        | cons e es =>
            have he : e ∈ (cs.dropWhile (· != '[')).head? := by rw [hdrop]; rfl
            rw [hdrop] at hd
            cases Option.some.inj hd
            exact eq_of_mem_head?_dropWhile he

end Literal

end Stencil
