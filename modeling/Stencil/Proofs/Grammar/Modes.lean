import Stencil.Proofs.Grammar.Errors
import Stencil.Proofs.Tiling.Layouts

/-!
# Places and Modes

The reader stands between statements exactly where the scanner is outside of the tags.

Of all that the reader knows about the tokens behind it, the scanner knows only whether a
tag is open. It switches at the two ends of a tag, whatever stands between them. The
reader takes in these two tokens at few places, and each time it goes from the statements
into a tag or back. So both go on in step, as long as every token is taken in.

Where a token is refused, both are still in step in front of it. In the tokens of a source
it is then a token of the mode: between statements a text or the opening of a tag, which
no place between statements refuses. So what is refused is neither of these. That a
statement was expected is said between statements alone, so no source comes to that error.

## Main definitions

* `Place.mode`: How the tokens are read that may stand at a place.
* `Token.StandsOutside`: A token is a text or the opening of a tag.
* `SyntaxError.found?`: The token that an error has found in place of what was expected.

## Theorems

* `step_mode`, `reads_mode`: The place of the reader and the mode of the scanner.
* `mode_of_arranged`: The mode that a token of a source is read in.
* `mode_of_offends`: What is refused in the tokens of a source stands inside a tag.
* `feed_ne_statement`, `finish_ne_statement`: Inside a tag no statement is expected.
* `place_of_feed_error`: In the tokens of a source only a tag refuses a token.
* `parse_error_insideTags`: What the tokens of a source have at each place of the reader, and
  which errors they do not come to.
-/

namespace Stencil

open Grammar

/-- How the tokens are read that may stand at a place. -/
def Place.mode : Place → Mode
  | .statement => .literal
  | _ => .expression

namespace Reader

variable {limit : Option Nat} {r s : Reader} {t : Token} {ts us : List Token}

theorem mode_of_awaits {place : Place} {tag : OpenTag} (h : place.Awaits tag) :
    place.mode = .expression := by
  cases h <;> rfl

/-- A token that is taken in moves the reader between statements and tags as it switches the
    mode. -/
theorem step_mode (h : Step limit r t s) (hr : r.Spells ts) :
    s.place.mode = r.place.mode.after t := by
  cases h with
  | integer hplace _ | nil hplace | lookup hplace | bracketOpen hplace _ =>
      -- A value may stand inside a tag only, and does not end it.
      rw [mode_of_awaits hplace]
      rfl
  | strayEnd => exact absurd rfl (hr.1 _ rfl)
  | _ => rfl

theorem Reads.mode (h : Reads limit r us s) (hr : r.Spells ts) :
    s.place.mode = r.place.mode.afterAll us := by
  induction h generalizing ts with
  | nil => rfl
  | @cons r u s t us hstep _ ih =>
      have hafter : r.place.mode.afterAll (t :: us) = (r.place.mode.after t).afterAll us := rfl
      rw [ih (step_spells hstep hr), step_mode hstep hr, hafter]

/-- The place behind some tokens is one for the mode behind them. -/
theorem reads_mode (h : Reads limit start us s) :
    s.place.mode = Mode.literal.afterAll us :=
  h.mode start_spells

end Reader

open Reader

section

variable {t : Token} {ts us vs : List Token} {p : Nat}

/-- A token of a source is read in the mode behind the tokens in front of it. -/
theorem mode_of_arranged (h : Arranged .literal (us ++ t :: vs)) :
    t.mode = Mode.literal.afterAll us :=
  (arranged_append.mp h).2.1.1

/-- Between statements a text and the opening of a tag are taken in, whatever the limit. -/
theorem exists_step_of_literal (limit : Option Nat) {r : Reader} (hplace : r.place.mode = .literal)
    (hmode : t.mode = .literal) : ∃ s, Step limit r t s := by
  rcases r with ⟨k, place, ss, bs⟩
  cases place with
  | statement =>
      cases t with
      | text s => exact ⟨_, .text⟩
      | tagOpen => exact ⟨_, .tagOpen⟩
      | _ => exact nomatch hmode
  | _ => exact nomatch hplace

/-- A token of a source that offends stands inside a tag. -/
theorem mode_of_offends (harranged : Arranged .literal ts) (h : Offends ts p (some t)) :
    t.mode = .expression := by
  rcases h with ⟨hfound, hfront, hviable, _⟩
  cases hmode : t.mode with
  | expression => rfl
  | literal =>
      exfalso
      have hts : ts = ts.take p ++ t :: ts.drop (p + 1) := by
        rcases List.getElem?_eq_some_iff.mp hfound with ⟨hp, rfl⟩
        rw [List.getElem_cons_drop, List.take_append_drop]
      rcases viable_iff.mp hfront with ⟨r, hreads⟩
      -- The reader is between statements in front of the token, and takes it in.
      have hplace : r.place.mode = .literal := by
        rw [reads_mode hreads, ← mode_of_arranged (hts ▸ harranged), hmode]
      rcases exists_step_of_literal none hplace hmode with ⟨s, hstep⟩
      have hnext : Viable (ts.take (p + 1)) := by
        refine viable_iff.mpr ⟨s, ?_⟩
        rw [List.take_add_one, hfound]
        exact hreads.append (.one hstep)
      -- Of what may be taken in and still offends, there is the word `end` only.
      have hend := (hviable.mp hnext).1
      rw [hfound, Option.some.injEq] at hend
      rw [hend] at hmode
      exact nomatch hmode

end

/-- The token is one of those that stand outside of the tags. -/
def Token.StandsOutside (t : Token) : Prop :=
  (∃ s, t = .text s) ∨ t = .tagOpen

theorem Token.standsOutside_iff {t : Token} : t.StandsOutside ↔ t.mode = .literal := by
  unfold StandsOutside
  constructor
  · rintro (⟨s, rfl⟩ | rfl)
    · rfl
    · rfl
  · intro hmode
    cases t with
    | text s => exact .inl ⟨s, rfl⟩
    | tagOpen => exact .inr rfl
    | _ => exact nomatch hmode

theorem Place.mode_eq_literal_iff {place : Place} : place.mode = .literal ↔ place = .statement := by
  constructor
  · intro hmode
    cases place with
    | statement => rfl
    | _ => exact nomatch hmode
  · rintro rfl
    rfl

/-- The token that an error has found in place of what was expected, where it says so and the
    tokens had not run out. -/
def SyntaxError.found? : SyntaxError → Option Token
  | .unexpected _ _ found => found
  | .missingExpression _ found => found
  | _ => none

namespace Reader

variable {limit : Option Nat} {r : Reader} {t : Token} {found : Option Token} {p : Nat}

theorem feedOperand_ne_statement {tag : OpenTag} :
    r.feedOperand limit tag t ≠ .error (.unexpected p .statement found) := by
  intro h
  unfold feedOperand at h
  split at h
  · split at h <;> exact nomatch h
  · exact nomatch h
  · exact nomatch h
  · split at h <;> exact nomatch h
  · split at h <;> exact nomatch h
  · exact nomatch h

theorem feedOperator_ne_statement {tag : OpenTag} {value : Node} :
    r.feedOperator limit tag value t ≠ .error (.unexpected p .statement found) := by
  intro h
  unfold feedOperator at h
  split at h
  · split at h <;> exact nomatch h
  · split at h
    · exact nomatch h
    · -- The end of a tag is refused for the nesting only.
      rcases tooDeep_of_closeTag h with ⟨q, hq⟩
      exact nomatch hq
    · exact nomatch h

/-- Inside a tag no token is refused because a statement was expected. -/
theorem feed_ne_statement (hplace : r.place.mode = .expression) :
    r.feed limit t ≠ .error (.unexpected p .statement found) := by
  intro h
  unfold feed at h
  split at h
  · rename_i hstatement
    rw [hstatement] at hplace
    exact nomatch hplace
  · unfold feedTagStart at h
    split at h
    · exact nomatch h
    · exact nomatch h
    · exact nomatch h
    · split at h <;> exact nomatch h
    · exact feedOperand_ne_statement h
  · split at h <;> exact nomatch h
  · split at h <;> exact nomatch h
  · split at h <;> exact nomatch h
  · exact feedOperand_ne_statement h
  · exact feedOperator_ne_statement h

/-- Wherever the tokens end, no statement was expected. -/
theorem finish_ne_statement : r.finish ≠ .error (.unexpected p .statement found) := by
  have hend : ∀ tag expected, expected ≠ .statement →
      r.endInTag tag expected ≠ .unexpected p .statement found := by
    intro tag expected hexpected h
    unfold endInTag at h
    split at h
    · exact nomatch h
    · cases h
      exact hexpected rfl
  intro h
  unfold finish at h
  split at h
  · split at h <;> exact nomatch h
  · exact nomatch h
  · exact nomatch h
  · exact nomatch h
  · exact nomatch h
  · exact hend _ .value nofun (Except.error.inj h)
  · exact hend _ .tagClose nofun (Except.error.inj h)

/-- Where the tokens end too early, a token that the error has found is the word `end`. -/
theorem found_of_stops {e : SyntaxError} (h : r.Stops e) (hfound : e.found? = some t) :
    t = .keyword .endWord := by
  cases h with
  | endWord _ => exact (Option.some.inj hfound).symm
  | _ => exact nomatch hfound

/-- The error for a token that is refused has found this token, or the word `end` in front of
    it. -/
theorem found_of_refuses {e : SyntaxError} {u : Token} (h : r.Refuses t e)
    (hfound : e.found? = some u) : u = t ∨ u = .keyword .endWord := by
  cases h with
  | unexpected => exact .inl (Option.some.inj hfound).symm
  | missingExpression => exact .inl (Option.some.inj hfound).symm
  | integerTooBig _ => exact nomatch hfound
  | endWord _ _ => exact .inr (Option.some.inj hfound).symm

end Reader

section

variable {limit : Option Nat} {r : Reader} {t : Token} {us vs : List Token} {e : SyntaxError}

/-- In the tokens of a source the next token is one for the place of the reader. -/
theorem mode_of_reads (harranged : Arranged .literal (us ++ t :: vs)) (h : Reads limit start us r) :
    t.mode = r.place.mode := by
  rw [mode_of_arranged harranged, reads_mode h]

/-- In the tokens of a source only a tag refuses a token. -/
theorem place_of_feed_error (harranged : Arranged .literal (us ++ t :: vs))
    (h : Reads limit start us r) (hfeed : r.feed limit t = .error e) :
    r.place.mode = .expression := by
  cases hmode : r.place.mode with
  | expression => rfl
  | literal =>
      -- Between statements the token is a text or the opening of a tag, and is taken in.
      have ht : t.mode = .literal := by rw [mode_of_reads harranged h, hmode]
      rcases exists_step_of_literal limit hmode ht with ⟨s, hstep⟩
      rw [feed_of_step hstep] at hfeed
      exact nomatch hfeed

end

/-- Where the reader gets to in the tokens of a source, the next token is a text or the opening
    of a tag exactly between statements. So the tokens of a source do not come to the error
    that a statement was expected, and what an error has found is neither a text nor the
    opening of a tag. -/
theorem parse_error_insideTags {source : String} {tokens : List Token}
    (h : scan source = .ok tokens) :
    (∀ us t vs r, tokens = us ++ t :: vs → Reads (some maxNesting) start us r →
      (r.place = .statement ↔ t.StandsOutside)) ∧
    ∀ e, parse tokens = .error e →
      (∀ p found, e ≠ .unexpected p .statement found) ∧
        ∀ t, e.found? = some t → ¬ t.StandsOutside := by
  have harranged : Arranged .literal tokens := by
    rcases scan_eq_ok_iff.mp h with ⟨pieces, hpieces, _, _, rfl⟩
    exact hpieces
  constructor
  · rintro us t vs r rfl hreads
    rw [Token.standsOutside_iff, mode_of_reads harranged hreads, Place.mode_eq_literal_iff]
  · intro e hparse
    have hword : ¬ (Token.keyword .endWord).StandsOutside :=
      fun hout => nomatch Token.standsOutside_iff.mp hout
    rcases run_eq_error hparse with ⟨r, _, hfinish⟩ | ⟨us, t, vs, r, rfl, hreads, hfeed⟩
    · constructor
      · rintro p found rfl
        exact finish_ne_statement hfinish
      · intro t hfound
        rw [found_of_stops (stops_of_finish hfinish) hfound]
        exact hword
    · have hplace := place_of_feed_error harranged hreads hfeed
      constructor
      · rintro p found rfl
        exact feed_ne_statement hplace hfeed
      · intro u hfound
        have hdeep : ∀ p, e ≠ .tooDeep p := by
          rintro p rfl
          exact nomatch hfound
        rcases found_of_refuses (refuses_of_feed hdeep hfeed) hfound with rfl | rfl
        · -- The token that is refused is one for a place inside a tag.
          rw [Token.standsOutside_iff, mode_of_reads harranged hreads, hplace]
          exact nofun
        · exact hword

/-- A source that ends in the middle of the tag that would end a block. -/
theorem parse_error_insideTags_endWord :
    scan "[% if x %]a[% end" = .ok [.tagOpen, .keyword .ifWord, .identifier "x", .tagClose,
        .text "a", .tagOpen, .keyword .endWord] ∧
      parse [.tagOpen, .keyword .ifWord, .identifier "x", .tagClose, .text "a", .tagOpen,
        .keyword .endWord] = .error (.unexpected 6 .value (some (.keyword .endWord))) ∧
      ¬ (Token.keyword .endWord).StandsOutside := by
  have hscan : scan "[% if x %]a[% end" = .ok [.tagOpen, .keyword .ifWord, .identifier "x",
      .tagClose, .text "a", .tagOpen, .keyword .endWord] := by decide +kernel
  have hparse : parse [.tagOpen, .keyword .ifWord, .identifier "x", .tagClose, .text "a", .tagOpen,
      .keyword .endWord] = .error (.unexpected 6 .value (some (.keyword .endWord))) := rfl
  exact ⟨hscan, hparse, ((parse_error_insideTags hscan).2 _ hparse).2 _ rfl⟩

end Stencil
