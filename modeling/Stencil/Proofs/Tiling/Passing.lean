import Stencil.Proofs.Tiling.Layouts

/-!
# What the Scanner Passes

How far a scanner gets, and what that depends on.

A scanner yields one token after another until it comes to the end of the source or to
a character at which no token starts. What it has passed by then is decided without
looking at what is left: only the first character behind a token can make the token a
longer one. So the same tokens are passed in front of anything else that ends the last
of them as well, such as nothing at all. `Passes.cut` says this, and with it a source
can be cut where the scanner stands, or be followed by other characters there.

## Main definitions

* `Scanner.IsGap`: Blanks are what is skipped in front of the next token.
* `Scanner.Passes`: A scanner yields some tokens and is then in front of the rest.
* `Scanner.EndsAlike`: Other characters end the token in front of them as well.

## Theorems

* `Scanner.next_ok`: All that a step does which yields a token.
* `Scanner.exists_passes`: A scanner passes tokens up to the end or to a stray character.
* `Scanner.items_of_passes`: The items of a scanner start with the tokens it passes.
* `Scanner.passes_of_items_ok`, `Scanner.passes_of_items_error`: How a scanner comes to
  yield its items.
* `Scanner.Passes.cut`: The tokens that are passed do not depend on what is left.
* `scanSpanned_eq_ok_iff_items`, `scanSpanned_eq_error_iff_items`: Scanning a source comes
  out as its items do.
-/

namespace Stencil

namespace Scanner

variable {s s' s'' : Scanner} {m : Mode} {k : Nat} {t : Spanned} {us vs : List Spanned}
  {l : Lexeme} {gap cs rest rest' : List Char} {c : Char} {e : ScanError}

section Gaps

/-- The characters are the blanks that are skipped in front of others: none outside of the
    tags, and inside a tag all that come first. -/
def IsGap : Mode → List Char → List Char → Prop
  | .literal, gap, _ => gap = []
  | .expression, gap, rest => (∀ c ∈ gap, isGap c) ∧ ∀ c ∈ rest.head?, ¬ isGap c

theorem skipGap_of_isGap (h : IsGap m gap rest) :
    skipGap ⟨m, k, gap ++ rest⟩ = ⟨m, k + byteLength gap, rest⟩ := by
  cases m with
  | literal =>
      have hnil : gap = [] := h
      subst hnil
      rfl
  | expression =>
      unfold skipGap
      simp only [takeWhile_append_eq h.1 h.2, dropWhile_append_eq h.1 h.2]

/-- Blanks are skipped in front of a token, and nothing else. -/
theorem exists_gap (s : Scanner) : ∃ gap, IsGap s.mode gap s.skipGap.rest ∧
    s.rest = gap ++ s.skipGap.rest ∧
    s.skipGap = ⟨s.mode, s.offset + byteLength gap, s.skipGap.rest⟩ := by
  rcases s with ⟨m, k, cs⟩
  cases m with
  | literal => exact ⟨[], rfl, rfl, rfl⟩
  | expression =>
      refine ⟨cs.takeWhile Stencil.isGap, ⟨?_, ?_⟩, List.takeWhile_append_dropWhile.symm, rfl⟩
      · intro c hc
        exact List.mem_takeWhile_imp hc
      · intro c hc
        exact not_of_mem_head?_dropWhile hc

end Gaps

section Steps

/-- A token takes its characters off the front. -/
theorem rest_eq_of_lexeme (h : s.lexeme? = some l) : s.rest = l.chars ++ l.rest := by
  rcases s with ⟨m, k, cs⟩
  cases m with
  | literal => exact (spec_of_literalLexeme? h).2
  | expression => exact (spec_of_expressionLexeme? h).2.2.2.2

theorem chars_ne_nil_of_lexeme (h : s.lexeme? = some l) : l.chars ≠ [] := by
  intro hnil
  have hlt := lexeme?_length_lt h
  rw [rest_eq_of_lexeme h, hnil, List.nil_append] at hlt
  omega

/-- A step that yields a token skips some blanks and takes the next token behind them. -/
theorem next_ok (h : s.next = (some (.ok t), s')) :
    ∃ gap l, IsGap s.mode gap (l.chars ++ l.rest) ∧ s.rest = gap ++ (l.chars ++ l.rest) ∧
      lexeme? ⟨s.mode, s.offset + byteLength gap, l.chars ++ l.rest⟩ = some l ∧
      (some (.ok t), s') = accept s.mode (s.offset + byteLength gap) l := by
  rcases exists_gap s with ⟨gap, hgap, hrest, hskip⟩
  rcases lexeme_of_next h with ⟨l, hl, haccept⟩
  have hchars := rest_eq_of_lexeme hl
  rw [hchars] at hgap hrest hskip
  rw [hskip] at hl haccept
  exact ⟨gap, l, hgap, hrest, hl, haccept⟩

/-- Where a token stands behind some blanks, it is the next one. -/
theorem next_of_isGap (hgap : IsGap m gap cs)
    (hl : lexeme? ⟨m, k + byteLength gap, cs⟩ = some l) :
    next ⟨m, k, gap ++ cs⟩ = accept m (k + byteLength gap) l := by
  have hskip := skipGap_of_isGap (k := k) hgap
  rw [next_of_lexeme (s := ⟨m, k, gap ++ cs⟩) (by rwa [hskip]), hskip]

end Steps

/-- One after another the scanner yields some tokens, and then it is in front of what is
    left. -/
inductive Passes : Scanner → List Spanned → Scanner → Prop
  | here {s : Scanner} : Passes s [] s
  | step {s s' s'' : Scanner} {t : Spanned} {us : List Spanned} : s.next = (some (.ok t), s') →
    Passes s' us s'' → Passes s (t :: us) s''

/-- A scanner passes tokens until nothing is left behind the blanks, or a character at which
    no token starts. -/
theorem exists_passes (s : Scanner) : ∃ us s', Passes s us s' ∧
    (s'.skipGap.rest = [] ∨ ∃ c cs, s'.skipGap.rest = c :: cs ∧ s'.skipGap.lexeme? = none) := by
  induction s using items.induct with
  | case1 s s' hnext => exact ⟨[], s, .here, .inl (rest_of_next hnext)⟩
  | case2 s item s' hnext ih =>
      cases item with
      | ok t =>
          rcases ih with ⟨us, s'', hpasses, hend⟩
          exact ⟨t :: us, s'', .step hnext hpasses, hend⟩
      | error e =>
          rcases next_cases s with ⟨_, hcase⟩ | ⟨l, _, hcase⟩ | ⟨c, cs, hrest, hnone, _⟩
          · cases hnext.symm.trans hcase
          · cases hnext.symm.trans hcase
          · exact ⟨[], s, .here, .inr ⟨c, cs, hrest, hnone⟩⟩

theorem items_of_passes (h : Passes s us s') : s.items = us.map .ok ++ s'.items := by
  induction h with
  | here => rfl
  | step hnext _ ih => rw [items_of_some hnext, ih, List.map_cons, List.cons_append]

/-- At the end a scanner yields nothing. -/
theorem items_of_end (h : s.skipGap.rest = []) : s.items = [] := by
  rcases next_cases s with ⟨_, hnext⟩ | ⟨l, hl, _⟩ | ⟨c, cs, hrest, _, _⟩
  · exact items_of_none hnext
  · have hlt := lexeme?_length_lt hl
    rw [h] at hlt
    exact absurd hlt (Nat.not_lt_zero _)
  · exact nomatch h.symm.trans hrest

theorem skipGap_rest_nil (m : Mode) (k : Nat) : (skipGap ⟨m, k, []⟩).rest = [] := by
  cases m <;> rfl

/-- At a character where no token starts a scanner yields the error, and nothing after it. -/
theorem items_of_stray (hrest : s.skipGap.rest = c :: cs) (hnone : s.skipGap.lexeme? = none) :
    s.items = [.error ⟨c, s.skipGap.offset⟩] := by
  rcases next_cases s with ⟨hnil, _⟩ | ⟨l, hl, _⟩ | ⟨d, ds, hrest', _, hnext⟩
  · exact nomatch hnil.symm.trans hrest
  · exact nomatch hnone.symm.trans hl
  · cases hrest.symm.trans hrest'
    rw [items_of_some hnext]
    -- An error leaves nothing to scan.
    rw [items_of_end (skipGap_rest_nil _ _)]

theorem map_ok_inj {us vs : List Spanned}
    (h : us.map (.ok : Spanned → ScanItem) = vs.map .ok) : us = vs :=
  (List.map_inj_right fun _ _ => Except.ok.inj).mp h

/-- A scanner that yields nothing but tokens passes them and comes to the end. -/
theorem passes_of_items_ok (h : s.items = us.map .ok) :
    ∃ s', Passes s us s' ∧ s'.skipGap.rest = [] := by
  rcases exists_passes s with ⟨vs, s', hpasses, hend | ⟨c, cs, hrest, hnone⟩⟩
  · have hitems := items_of_passes hpasses
    rw [items_of_end hend, List.append_nil, h] at hitems
    exact ⟨s', map_ok_inj hitems ▸ hpasses, hend⟩
  · -- An error would be among the items.
    have hitems := items_of_passes hpasses
    rw [items_of_stray hrest hnone, h] at hitems
    have herror : Except.error ⟨c, s'.skipGap.offset⟩ ∈ us.map (.ok : Spanned → ScanItem) := by
      rw [hitems]
      exact List.mem_append_right _ List.mem_cons_self
    rcases List.mem_map.mp herror with ⟨t, _, ht⟩
    exact nomatch ht

/-- A scanner that yields an error behind some tokens passes them and comes to the character
    that the error is about. -/
theorem passes_of_items_error (h : s.items = us.map .ok ++ [.error e]) :
    ∃ s' cs, Passes s us s' ∧ s'.skipGap.rest = e.found :: cs ∧ s'.skipGap.lexeme? = none ∧
      e.start = s'.skipGap.offset := by
  rcases exists_passes s with ⟨vs, s', hpasses, hend | ⟨c, cs, hrest, hnone⟩⟩
  · -- No error would be among the items.
    have hitems := items_of_passes hpasses
    rw [items_of_end hend, List.append_nil, h] at hitems
    have herror : Except.error e ∈ vs.map (.ok : Spanned → ScanItem) := by
      rw [← hitems]
      exact List.mem_append_right _ List.mem_cons_self
    rcases List.mem_map.mp herror with ⟨t, _, ht⟩
    exact nomatch ht
  · have hitems := items_of_passes hpasses
    rw [items_of_stray hrest hnone, h] at hitems
    rcases List.append_inj' hitems rfl with ⟨hus, herror⟩
    cases herror
    exact ⟨s', cs, map_ok_inj hus ▸ hpasses, hrest, hnone, rfl⟩

/-- The mode changes with the tokens that are passed. -/
theorem mode_of_passes (h : Passes s us s') :
    s'.mode = s.mode.afterAll (us.map Spanned.token) := by
  induction h with
  | here => rfl
  | step hnext _ ih =>
      rcases next_ok hnext with ⟨gap, l, _, _, _, haccept⟩
      cases haccept
      exact ih

/-- Passing tokens one behind the other is passing all of them. -/
theorem passes_append : Passes s (us ++ vs) s'' ↔ ∃ s', Passes s us s' ∧ Passes s' vs s'' := by
  induction us generalizing s with
  | nil =>
      constructor
      · intro h
        exact ⟨s, .here, h⟩
      · rintro ⟨s', hnone, h⟩
        cases hnone
        exact h
  | cons u us ih =>
      constructor
      · intro h
        cases h with
        | step hnext hrest =>
            rcases ih.mp hrest with ⟨s', hus, hvs⟩
            exact ⟨s', .step hnext hus, hvs⟩
      · rintro ⟨s', hus, hvs⟩
        cases hus with
        | step hnext hrest => exact .step hnext (ih.mpr ⟨s', hrest, hvs⟩)

section Cuts

/-- Other characters end the token in front of them as well: they start like those that are
    there, or inside a tag with one that is part of no word and no number. -/
def EndsAlike (m : Mode) (rest rest' : List Char) : Prop :=
  ∀ c ∈ rest'.head?, c ∈ rest.head? ∨ (m = .expression ∧ ¬ isWordPart c)

/-- The next token is the same one in front of other characters that end it as well. -/
theorem lexeme?_of_endsAlike (hl : lexeme? ⟨m, k, cs⟩ = some l)
    (h : EndsAlike (m.after l.token) l.rest rest) :
    lexeme? ⟨m, k, l.chars ++ rest⟩ = some ⟨l.token, l.chars, rest⟩ := by
  cases m with
  | literal =>
      rcases (spec_of_literalLexeme? hl).1 with ⟨htoken, hchars⟩ | ⟨htoken, hpiece⟩
      · rw [htoken, hchars]
        rfl
      · -- A piece of text does not leave the mode, so what comes behind it starts alike.
        have hhead : ∀ c ∈ rest.head?, c ∈ l.rest.head? := by
          intro c hc
          rcases h c hc with hsame | ⟨hmode, _⟩
          · exact hsame
          · rw [htoken] at hmode
            exact nomatch hmode
        have hpiece' : IsPiece l.chars rest := by
          rcases hpiece with ⟨hbracket, hpercent⟩ | ⟨hnil, hbracket, hrest⟩
          · exact .inl ⟨hbracket, fun hmem => hpercent (hhead _ hmem)⟩
          · exact .inr ⟨hnil, hbracket, fun c hc => hrest c (hhead c hc)⟩
        rw [htoken]
        exact literalLexeme?_piece hpiece'
  | expression =>
      rcases spec_of_expressionLexeme? hl with ⟨hmode, hwf, hends, hwritten, _⟩
      have hends' : l.token.Ends rest := by
        intro c hc
        rcases h c hc with hsame | ⟨_, hpart⟩
        · exact hends c hsame
        · exact ⟨fun _ => hpart, fun _ _ hdigit => hpart (isWordPart_iff.mpr (.inr hdigit))⟩
      exact expressionLexeme?_eq_some_iff.mpr ⟨hmode, hwf, hends', hwritten, rfl⟩

/-- What is passed does not depend on what is left: the same tokens are passed in front of
    other characters that end the last one as well. -/
theorem Passes.cut (h : Passes s us s') : ∃ pre, s.rest = pre ++ s'.rest ∧
    s'.offset = s.offset + byteLength pre ∧ (pre = [] → s'.mode = s.mode) ∧
    ∀ rest, EndsAlike s'.mode s'.rest rest →
      Passes ⟨s.mode, s.offset, pre ++ rest⟩ us ⟨s'.mode, s'.offset, rest⟩ := by
  induction h with
  | here => exact ⟨[], rfl, rfl, fun _ => rfl, fun rest _ => .here⟩
  | @step s s₁ s' t us hnext _ ih =>
      rcases next_ok hnext with ⟨gap, l, hgap, hrest, hl, haccept⟩
      have hnil := chars_ne_nil_of_lexeme hl
      cases haccept
      rcases ih with ⟨pre, hpre, hoffset, hmode, hpasses⟩
      simp only at hpre hoffset hmode hpasses
      refine ⟨gap ++ (l.chars ++ pre), ?_, ?_, fun h => ?_, fun rest hends => ?_⟩
      · rw [hrest, hpre, List.append_assoc, List.append_assoc]
      · rw [hoffset, byteLength_append, byteLength_append]
        omega
      · exact absurd (List.append_eq_nil_iff.mp (List.append_eq_nil_iff.mp h).2).1 hnil
      · -- Behind the first token comes what is passed later, or else the rest itself.
        have hfirst : EndsAlike (s.mode.after l.token) l.rest (pre ++ rest) := by
          intro c hc
          by_cases hlater : pre = []
          · rw [hlater, List.nil_append] at hc hpre
            rw [hpre, ← hmode hlater]
            exact hends c hc
          · rw [List.head?_append_of_ne_nil _ hlater] at hc
            rw [hpre, List.head?_append_of_ne_nil _ hlater]
            exact .inl hc
        have hl' := lexeme?_of_endsAlike hl hfirst
        have hgap' : IsGap s.mode gap (l.chars ++ (pre ++ rest)) := by
          cases hm : s.mode with
          | literal =>
              rw [hm] at hgap
              exact hgap
          | expression =>
              rw [hm] at hgap
              refine ⟨hgap.1, fun c hc => hgap.2 c ?_⟩
              rw [List.head?_append_of_ne_nil _ hnil] at hc ⊢
              exact hc
        rw [List.append_assoc, List.append_assoc]
        have hnext' := next_of_isGap hgap' hl'
        exact .step hnext' (hpasses rest hends)

end Cuts

end Scanner

section

variable {source : String} {us ts : List Spanned} {e : ScanError}

theorem collect_map_ok (us : List Spanned) : collect (us.map .ok) = .ok us := by
  induction us with
  | nil => rfl
  | cons t us ih => rw [List.map_cons, collect, ih]

theorem collect_concat_error (us : List Spanned) (e : ScanError) :
    collect (us.map .ok ++ [.error e]) = .error e := by
  induction us with
  | nil => rfl
  | cons t us ih => rw [List.map_cons, List.cons_append, collect, ih]

/-- All items of a scanner are tokens, except that the last one may be an error. -/
theorem Scanner.items_cases (s : Scanner) : ∃ us : List Spanned, s.items = us.map .ok ∨
    ∃ e, s.items = us.map .ok ++ [.error e] := by
  rcases exists_passes s with ⟨us, s', hpasses, hend | ⟨c, cs, hrest, hnone⟩⟩
  · refine ⟨us, .inl ?_⟩
    rw [items_of_passes hpasses, items_of_end hend, List.append_nil]
  · refine ⟨us, .inr ⟨⟨c, s'.skipGap.offset⟩, ?_⟩⟩
    rw [items_of_passes hpasses, items_of_stray hrest hnone]

theorem scanSpanned_of_items_ok (h : (Scanner.ofString source).items = us.map .ok) :
    scanSpanned source = .ok (mergeText us) := by
  rw [scanSpanned, h, collect_map_ok]

theorem scanSpanned_of_items_error
    (h : (Scanner.ofString source).items = us.map .ok ++ [.error e]) :
    scanSpanned source = .error e := by
  rw [scanSpanned, h, collect_concat_error]

/-- A source is scanned where all items are tokens. -/
theorem scanSpanned_eq_ok_iff_items : scanSpanned source = .ok ts ↔
    ∃ us : List Spanned, (Scanner.ofString source).items = us.map .ok ∧ mergeText us = ts := by
  constructor
  · intro h
    rcases (Scanner.ofString source).items_cases with ⟨us, hok | ⟨e, herror⟩⟩
    · rw [scanSpanned_of_items_ok hok] at h
      exact ⟨us, hok, Except.ok.inj h⟩
    · rw [scanSpanned_of_items_error herror] at h
      exact nomatch h
  · rintro ⟨us, hitems, rfl⟩
    exact scanSpanned_of_items_ok hitems

/-- Scanning a source fails where the last item is an error. -/
theorem scanSpanned_eq_error_iff_items : scanSpanned source = .error e ↔
    ∃ us : List Spanned, (Scanner.ofString source).items = us.map .ok ++ [.error e] := by
  constructor
  · intro h
    rcases (Scanner.ofString source).items_cases with ⟨us, hok | ⟨e', herror⟩⟩
    · rw [scanSpanned_of_items_ok hok] at h
      exact nomatch h
    · rw [scanSpanned_of_items_error herror] at h
      cases h
      exact ⟨us, herror⟩
  · rintro ⟨us, hitems⟩
    exact scanSpanned_of_items_error hitems

end

end Stencil
