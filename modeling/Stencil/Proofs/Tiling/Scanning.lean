import Stencil.Proofs.Tiling.Lexemes

/-!
# Scanning Finds the Tiling

Scanning a source succeeds exactly where some tokens tile it, and these are the tokens it
yields. In particular there is at most one tiling.

Two things separate the scanner from a tiling. A token is taken with all the characters
it can take, where a tiling only asks that it does not run into the next: both come to
the same once the rest is tiled, since the next tile shows what the next character is.
And literal text comes in pieces that are put together from the back, so a piece in
front of a tiling either is a tile of its own or makes the first tile longer.

## Main definitions

* `Scanner.tokens`: The tokens of what is left of a source, with pieces of text put
  together.

## Theorems

* `Tiles.ends_iff`: A token does not go on exactly where it is kept apart from the next.
* `Tiles.of_piece`: A piece of text in front of a tiling.
* `Scanner.tiles_of_tokens`: What is scanned is a tiling.
* `Scanner.tokens_of_tiles`: A tiling is scanned.
* `scanSpanned_eq_ok_iff`: Scanning a source finds its tiling.
-/

namespace Stencil

namespace Scanner

variable {s s' : Scanner} {t : Spanned} {l : Lexeme}

/-- The tokens of what is left of a source, with pieces of text put together. -/
def tokens (s : Scanner) : Except ScanError (List Spanned) :=
  match collect s.items with
  | .ok ts => .ok (mergeText ts)
  | .error e => .error e

theorem items_of_none (h : s.next = (none, s')) : s.items = [] := by
  rw [items]
  split
  · rfl
  · rename_i heq
    cases h.symm.trans heq

theorem items_of_some {item : ScanItem} (h : s.next = (some item, s')) :
    s.items = item :: s'.items := by
  rw [items]
  split
  · rename_i heq
    cases h.symm.trans heq
  · rename_i heq
    cases h.symm.trans heq
    rfl

theorem tokens_of_none (h : s.next = (none, s')) : s.tokens = .ok [] := by
  rw [tokens, items_of_none h]
  rfl

theorem tokens_of_error {e : ScanError} (h : s.next = (some (.error e), s')) :
    s.tokens = .error e := by
  rw [tokens, items_of_some h]
  rfl

theorem tokens_of_ok (h : s.next = (some (.ok t), s')) :
    s.tokens = s'.tokens.map (consMerged t) := by
  rw [tokens, items_of_some h, collect, tokens]
  cases collect s'.items with
  | ok ts => rfl
  | error e => rfl

/-- All that one step can do: nothing is left behind the blanks, a token stands there, or
    some character at which none starts. -/
theorem next_cases (s : Scanner) :
    (s.skipGap.rest = [] ∧ s.next = (none, s.skipGap)) ∨
      (∃ l, s.skipGap.lexeme? = some l ∧ s.next = accept s.skipGap.mode s.skipGap.offset l) ∨
      ∃ c cs, s.skipGap.rest = c :: cs ∧ s.skipGap.lexeme? = none ∧
        s.next = (some (.error ⟨c, s.skipGap.offset⟩), { s.skipGap with rest := [] }) := by
  simp only [next]
  split
  · exact .inl ⟨‹_›, rfl⟩
  · split
    · exact .inr (.inl ⟨_, ‹_›, rfl⟩)
    · exact .inr (.inr ⟨_, _, ‹_›, ‹_›, rfl⟩)

theorem tokens_eq_ok_of_ok {ts : List Spanned} (hnext : s.next = (some (.ok t), s'))
    (h : s.tokens = .ok ts) : ∃ us, s'.tokens = .ok us ∧ consMerged t us = ts := by
  rw [tokens_of_ok hnext] at h
  cases hus : s'.tokens with
  | error e =>
      rw [hus] at h
      exact nomatch h
  | ok us =>
      rw [hus] at h
      exact ⟨us, rfl, Except.ok.inj h⟩

theorem next_of_lexeme (h : s.skipGap.lexeme? = some l) :
    s.next = accept s.skipGap.mode s.skipGap.offset l := by
  rcases next_cases s with ⟨hrest, _⟩ | ⟨l', hl', hnext⟩ | ⟨c, cs, _, hnone, _⟩
  · -- A token takes a character, and none is left.
    have hlt := lexeme?_length_lt h
    rw [hrest] at hlt
    exact absurd hlt (Nat.not_lt_zero _)
  · rw [hnext, Option.some.inj (h.symm.trans hl')]
  · rw [h] at hnone
    exact nomatch hnone

/-- What is scanned from a token on that stands at the very start. -/
theorem tokens_of_lexeme {m : Mode} {k : Nat} {t : Token} {cs chars rest : List Char}
    (hskip : skipGap ⟨m, k, cs⟩ = ⟨m, k, cs⟩)
    (h : lexeme? ⟨m, k, cs⟩ = some ⟨t, chars, rest⟩) :
    tokens ⟨m, k, cs⟩ = (tokens ⟨m.after t, k + byteLength chars, rest⟩).map
      (consMerged ⟨t, k, k + byteLength chars⟩) := by
  have hnext : next ⟨m, k, cs⟩ = accept m k ⟨t, chars, rest⟩ := by
    rw [next_of_lexeme (s := ⟨m, k, cs⟩) (by rwa [hskip]), hskip]
  exact tokens_of_ok hnext

theorem lexeme_of_next (h : s.next = (some (.ok t), s')) :
    ∃ l, s.skipGap.lexeme? = some l ∧
      (some (.ok t), s') = accept s.skipGap.mode s.skipGap.offset l := by
  rcases next_cases s with ⟨_, hnext⟩ | ⟨l, hl, hnext⟩ | ⟨c, cs, _, _, hnext⟩
  · exact nomatch h.symm.trans hnext
  · exact ⟨l, hl, h.symm.trans hnext⟩
  · exact nomatch h.symm.trans hnext

theorem rest_of_next (h : s.next = (none, s')) : s.skipGap.rest = [] := by
  rcases next_cases s with ⟨hrest, _⟩ | ⟨l, _, hnext⟩ | ⟨c, cs, _, _, hnext⟩
  · exact hrest
  · exact nomatch h.symm.trans hnext
  · exact nomatch h.symm.trans hnext

/-- Scanners that stand in front of the same token go on alike. -/
theorem tokens_congr (h : s.skipGap = s'.skipGap) : s.tokens = s'.tokens := by
  have hnext : s.next = s'.next := by
    unfold next
    rw [h]
  rcases hitem : s'.next with ⟨_ | item, u⟩
  · rw [tokens, tokens, items_of_none hitem, items_of_none (hnext.trans hitem)]
  · rw [tokens, tokens, items_of_some hitem, items_of_some (hnext.trans hitem)]

end Scanner

@[simp]
theorem Mode.after_text (m : Mode) (s : String) : m.after (.text s) = m := rfl

theorem consMerged_eq_cons {t : Spanned} {ts : List Spanned}
    (h : ∀ u ∈ ts.head?, ¬ (t.token.isText ∧ u.token.isText)) : consMerged t ts = t :: ts := by
  unfold consMerged
  split
  · rename_i htext
    exact absurd ⟨by rw [htext]; rfl, rfl⟩ (h _ rfl)
  · rfl

namespace Tiles

variable {m : Mode} {k : Nat} {cs : List Char} {ts : List Spanned} {t : Token}

/-- In front of a tiling a token of an expression does not go on exactly where it is kept
    apart from the first tile. -/
theorem ends_iff (hmode : t.mode = .expression) (h : Tiles (Mode.expression.after t) k cs ts) :
    t.Ends cs ↔ Separate t k ts := by
  have htext : ¬ t.isText := Bool.eq_false_iff.mp (Token.isText_of_mode hmode)
  by_cases hsign : t.isWord ∨ t.isInteger
  · -- The expression goes on, so what follows is the end, a blank or another token of it.
    rw [Token.after_eq_expression hsign] at h
    cases h with
    | done => exact ⟨fun _ => nofun, fun _ => nofun⟩
    | @gap _ c cs _ hgap hrest =>
        -- Both hold: a blank goes on no token, and the first tile starts behind it.
        refine ⟨fun _ u hu => ⟨fun h => htext h.1, fun _ => ?_⟩, fun _ d hd => ?_⟩
        · have hstart := hrest.le_start u (List.mem_of_mem_head? hu)
          exact Nat.lt_of_lt_of_le (Nat.lt_add_of_pos_right c.utf8Size_pos) hstart
        · cases Option.some.inj hd
          have hpart := not_isWordPart_of_isGap hgap
          exact ⟨fun _ => hpart, fun _ _ hdigit => hpart (isWordPart_iff.mpr (.inr hdigit))⟩
    | token humode hwf _ _ =>
        rw [Token.ends_written_iff humode hwf]
        refine ⟨fun hnot u hu => ⟨fun h => htext h.1, fun hjoins => ?_⟩, fun h hjoins => ?_⟩
        · cases Option.some.inj hu
          exact absurd hjoins hnot
        · exact absurd ((h _ rfl).2 hjoins) (Nat.lt_irrefl _)
  · -- A sign never goes on and joins with nothing.
    have hword : t.isWord = false := Bool.eq_false_iff.mpr fun h => hsign (.inl h)
    have hinteger : t.isInteger = false := Bool.eq_false_iff.mpr fun h => hsign (.inr h)
    exact ⟨fun _ u _ => ⟨fun h => htext h.1, fun h => absurd h (Token.not_joins hword hinteger)⟩,
      fun _ => Token.ends_of_sign hword hinteger⟩

/-- Outside of the tags, what follows a text is the opening of a tag. -/
theorem eq_bracket_of_literal (h : Tiles .literal k cs ts)
    (hts : ∀ u ∈ ts.head?, ¬ u.token.isText) : ∀ c ∈ cs.head?, c = '[' := by
  cases h with
  | done => nofun
  | @token _ _ t cs _ hmode _ _ _ =>
      intro c hc
      cases t with
      | text s => exact absurd rfl (hts _ rfl)
      | tagOpen => exact (Option.some.inj hc).symm
      | _ => exact nomatch hmode

/-- A text is a tile in front of a tiling that starts with no text. -/
theorem of_text {w : List Char} (hnil : w ≠ []) (htext : ¬ ['[', '%'] <:+: w)
    (hts : ∀ u ∈ ts.head?, ¬ u.token.isText) (h : Tiles .literal (k + byteLength w) cs ts) :
    Tiles .literal k (w ++ cs) (⟨.text (String.ofList w), k, k + byteLength w⟩ :: ts) := by
  have hwritten : (Token.text (String.ofList w)).written.toList = w := String.toList_ofList
  have hwf : (Token.text (String.ofList w)).WellFormed := by
    refine ⟨fun hempty => hnil ?_, ?_⟩
    · rw [← hwritten, Token.written, hempty]
      rfl
    · rwa [String.toList_ofList]
  have hseparate : Separate (.text (String.ofList w)) (k + byteLength w) ts :=
    fun u hu => ⟨fun htexts => hts u hu htexts.2, fun h => absurd h (Token.not_joins rfl rfl)⟩
  have htile := Tiles.token (k := k) (m := .literal) rfl hwf (by rwa [hwritten]) (by rwa [hwritten])
  rwa [hwritten] at htile

/-- A piece of text in front of a tiling is put together with a text that the tiling
    starts with. -/
theorem of_piece {piece : List Char} (hpiece : IsPiece piece cs)
    (h : Tiles .literal (k + byteLength piece) cs ts) :
    Tiles .literal k (piece ++ cs)
      (consMerged ⟨.text (String.ofList piece), k, k + byteLength piece⟩ ts) := by
  have halone : ¬ ['[', '%'] <:+: piece := by
    have hnot := hpiece.not_infix (w := []) (by decide)
    rwa [List.append_nil] at hnot
  cases h with
  | done => exact of_text hpiece.ne_nil halone nofun .done
  | @token _ _ t ds us hmode hwf hseparate hrest =>
      have htile := Tiles.token hmode hwf hseparate hrest
      cases t with
      | text s =>
          -- The two texts are one, and no tag opens where they meet.
          have hboth : String.ofList (piece ++ s.toList) = String.ofList piece ++ s := by
            rw [String.ofList_append, String.ofList_toList]
          have hnil : piece ++ s.toList ≠ [] := List.append_ne_nil_of_left_ne_nil hpiece.ne_nil _
          have hmerged := of_text hnil (hpiece.not_infix hwf.2) hseparate.not_isText
            (by rwa [byteLength_append, ← Nat.add_assoc])
          rwa [hboth, byteLength_append, ← Nat.add_assoc, List.append_assoc] at hmerged
      | tagOpen =>
          -- The piece is a tile of its own.
          refine of_text hpiece.ne_nil halone (fun u hu => ?_) htile
          cases Option.some.inj hu
          exact nofun
      | _ => exact nomatch hmode

theorem of_literalLexeme {l : Lexeme} (hl : literalLexeme? cs = some l)
    (h : Tiles (Mode.literal.after l.token) (k + byteLength l.chars) l.rest ts) :
    Tiles .literal k cs (consMerged ⟨l.token, k, k + byteLength l.chars⟩ ts) := by
  rcases spec_of_literalLexeme? hl with ⟨⟨htoken, hchars⟩ | ⟨htoken, hpiece⟩, hcs⟩
  · rw [hcs, htoken, hchars]
    rw [htoken, hchars] at h
    exact .token (t := .tagOpen) rfl trivial
      (fun _ _ => ⟨nofun, fun h => absurd h (Token.not_joins rfl rfl)⟩) h
  · rw [hcs, htoken]
    rw [htoken] at h
    exact of_piece hpiece h

theorem of_expressionLexeme {l : Lexeme} (hl : expressionLexeme? cs = some l)
    (h : Tiles (Mode.expression.after l.token) (k + byteLength l.chars) l.rest ts) :
    Tiles .expression k cs (consMerged ⟨l.token, k, k + byteLength l.chars⟩ ts) := by
  rcases spec_of_expressionLexeme? hl with ⟨hmode, hwf, hends, hwritten, hcs⟩
  -- The token is no text, so nothing is put together.
  have htext : ¬ l.token.isText := Bool.eq_false_iff.mp (Token.isText_of_mode hmode)
  rw [consMerged_eq_cons fun _ _ h => htext h.1, hcs, ← hwritten]
  rw [← hwritten] at h
  exact .token hmode hwf ((ends_iff hmode h).mp hends) h

/-- The next token in front of a tiling, put together with a text that it starts with. -/
theorem of_lexeme {s : Scanner} {l : Lexeme} (hl : s.lexeme? = some l)
    (h : Tiles (s.mode.after l.token) (s.offset + byteLength l.chars) l.rest ts) :
    Tiles s.mode s.offset s.rest
      (consMerged ⟨l.token, s.offset, s.offset + byteLength l.chars⟩ ts) := by
  rcases s with ⟨m, k, cs⟩
  cases m with
  | literal => exact of_literalLexeme hl h
  | expression => exact of_expressionLexeme hl h

end Tiles

namespace Scanner

variable {ts : List Spanned}

/-- What is scanned is a tiling, if it is one behind the blanks. -/
theorem tiles_of_skipGap {s : Scanner}
    (h : Tiles s.skipGap.mode s.skipGap.offset s.skipGap.rest ts) :
    Tiles s.mode s.offset s.rest ts := by
  rcases s with ⟨m, k, cs⟩
  cases m with
  | literal => exact h
  | expression =>
      have hgap := Tiles.of_gap (g := cs.takeWhile isGap) (fun c hc => List.mem_takeWhile_imp hc) h
      rwa [skipGap, List.takeWhile_append_dropWhile] at hgap

/-- What is scanned is a tiling. -/
theorem tiles_of_tokens {s : Scanner} (h : s.tokens = .ok ts) :
    Tiles s.mode s.offset s.rest ts := by
  -- The induction follows the steps of the scanner, up to the one that yields nothing.
  induction s using items.induct generalizing ts with
  | case1 s s' hnext =>
      rw [tokens_of_none hnext] at h
      cases h
      refine tiles_of_skipGap ?_
      rw [rest_of_next hnext]
      exact .done
  | case2 s item s' hnext ih =>
      refine tiles_of_skipGap ?_
      cases item with
      | error e =>
          rw [tokens_of_error hnext] at h
          exact nomatch h
      | ok t =>
          rcases tokens_eq_ok_of_ok hnext h with ⟨us, hus, rfl⟩
          rcases lexeme_of_next hnext with ⟨l, hl, haccept⟩
          have htiles := ih hus
          cases haccept
          exact Tiles.of_lexeme hl htiles

/-- A text that opens no tag is scanned into one token, in front of tokens that start with
    no text. -/
theorem tokens_text {k : Nat} {w cs : List Char} (hnil : w ≠ []) (htext : ¬ ['[', '%'] <:+: w)
    (hcs : ∀ c ∈ cs.head?, c = '[') (hts : ∀ u ∈ ts.head?, ¬ u.token.isText)
    (h : tokens ⟨.literal, k + byteLength w, cs⟩ = .ok ts) :
    tokens ⟨.literal, k, w ++ cs⟩
      = .ok (⟨.text (String.ofList w), k, k + byteLength w⟩ :: ts) := by
  -- Piece by piece: what the text is left with behind its first piece is shorter.
  induction hn : w.length using Nat.strong_induction_on generalizing k w with
  | _ n ih =>
      rcases exists_piece hnil htext hcs with ⟨piece, w', rfl, hpiece⟩
      have htokens := tokens_of_lexeme (k := k) (m := .literal) rfl (literalLexeme?_piece hpiece)
      rw [List.append_assoc, htokens, Mode.after_text]
      rw [byteLength_append, ← Nat.add_assoc] at h ⊢
      by_cases hw' : w' = []
      · -- The piece was the last, and no text follows it.
        subst hw'
        rw [byteLength_nil, Nat.add_zero] at h
        rw [List.nil_append, h, List.append_nil]
        exact congrArg Except.ok (consMerged_eq_cons fun u hu htexts => hts u hu htexts.2)
      · have hlt : w'.length < n := by
          have hpos := List.length_pos_iff.mpr hpiece.ne_nil
          rw [← hn, List.length_append]
          omega
        have hw'text : ¬ ['[', '%'] <:+: w' :=
          fun hinside => htext (List.IsInfix.trans hinside (List.suffix_append piece w').isInfix)
        -- The piece is put in front of the text that the others make.
        rw [ih w'.length hlt hw' hw'text h rfl, String.ofList_append]
        rfl

theorem skipGap_written {k : Nat} {t : Token} {cs : List Char} (hmode : t.mode = .expression)
    (hwf : t.WellFormed) : skipGap ⟨.expression, k, t.written.toList ++ cs⟩
      = ⟨.expression, k, t.written.toList ++ cs⟩ := by
  rcases t.written_eq_cons hmode hwf with ⟨c, ds, hchars, hgap, _⟩
  simp only [skipGap, hchars, List.cons_append, List.takeWhile_cons_of_neg hgap,
    List.dropWhile_cons_of_neg hgap, byteLength_nil, Nat.add_zero]

/-- A tile outside of the tags is scanned in front of what is scanned behind it. -/
theorem tokens_literal_tile {k : Nat} {t : Token} {cs : List Char} (hmode : t.mode = .literal)
    (hwf : t.WellFormed) (hseparate : Separate t (k + byteLength t.written.toList) ts)
    (hrest : Tiles (Mode.literal.after t) (k + byteLength t.written.toList) cs ts)
    (h : tokens ⟨Mode.literal.after t, k + byteLength t.written.toList, cs⟩ = .ok ts) :
    tokens ⟨.literal, k, t.written.toList ++ cs⟩
      = .ok (⟨t, k, k + byteLength t.written.toList⟩ :: ts) := by
  cases t with
  | text s =>
      have hcs := Tiles.eq_bracket_of_literal hrest hseparate.not_isText
      have hnil := Token.written_ne_nil hwf
      have htokens := tokens_text (k := k) hnil hwf.2 hcs hseparate.not_isText h
      rwa [Token.written, String.ofList_toList] at htokens
  | tagOpen =>
      have hl : lexeme? ⟨.literal, k, Token.tagOpen.written.toList ++ cs⟩
          = some ⟨.tagOpen, Token.tagOpen.written.toList, cs⟩ := rfl
      rw [tokens_of_lexeme rfl hl, h]
      exact congrArg Except.ok (consMerged_eq_cons fun u hu => (hseparate u hu).1)
  | _ => exact nomatch hmode

/-- A tile inside a tag is scanned in front of what is scanned behind it. -/
theorem tokens_expression_tile {k : Nat} {t : Token} {cs : List Char} (hmode : t.mode = .expression)
    (hwf : t.WellFormed) (hseparate : Separate t (k + byteLength t.written.toList) ts)
    (hrest : Tiles (Mode.expression.after t) (k + byteLength t.written.toList) cs ts)
    (h : tokens ⟨Mode.expression.after t, k + byteLength t.written.toList, cs⟩ = .ok ts) :
    tokens ⟨.expression, k, t.written.toList ++ cs⟩
      = .ok (⟨t, k, k + byteLength t.written.toList⟩ :: ts) := by
  have hends := (Tiles.ends_iff hmode hrest).mpr hseparate
  rw [tokens_of_lexeme (skipGap_written hmode hwf) (expressionLexeme?_written hmode hwf hends), h]
  exact congrArg Except.ok (consMerged_eq_cons fun u hu => (hseparate u hu).1)

/-- A tiling is scanned. -/
theorem tokens_of_tiles {m : Mode} {k : Nat} {cs : List Char} (h : Tiles m k cs ts) :
    tokens ⟨m, k, cs⟩ = .ok ts := by
  induction h with
  | @done m k => cases m <;> exact tokens_of_none rfl
  | @gap k c cs ts hgap _ ih =>
      -- With or without the blank, the scanner comes to stand behind all blanks.
      have hskip : skipGap ⟨.expression, k, c :: cs⟩
          = skipGap ⟨.expression, k + c.utf8Size, cs⟩ := by
        simp only [skipGap, List.takeWhile_cons_of_pos hgap, List.dropWhile_cons_of_pos hgap,
          byteLength_cons, Nat.add_assoc]
      rw [tokens_congr hskip, ih]
  | @token m k t cs ts hmode hwf hseparate hrest ih =>
      cases m with
      | literal => exact tokens_literal_tile hmode hwf hseparate hrest ih
      | expression => exact tokens_expression_tile hmode hwf hseparate hrest ih

end Scanner

/-- Scanning a source finds its tiling. -/
theorem scanSpanned_eq_ok_iff {source : String} {ts : List Spanned} :
    scanSpanned source = .ok ts ↔ Tiles .literal 0 source.toList ts :=
  ⟨fun h => Scanner.tiles_of_tokens (s := .ofString source) h, fun h => Scanner.tokens_of_tiles h⟩

end Stencil
