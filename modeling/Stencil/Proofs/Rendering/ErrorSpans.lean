import Stencil.Proofs.Grammar.Limits
import Stencil.Proofs.Grammar.Modes
import Stencil.Proofs.Rendering
import Stencil.Proofs.Tiling.Failures

/-!
# Where Errors Point in the Source

The part of the source that an error marks is what the error is about.

Three things that know nothing of each other come together here. The scanner gives each
token its bytes, and an error of its own the bytes of one character. The reader counts
tokens, and an error of it has the number of one of them, or the number behind the last.
The span of an error is then looked up under that number, and where there is no such token
the last one stands in for it. This always finds a token, since no tokens at all are a
template.

What is found there says the same as the error. The tokens account for the source, so what
stands at the span is the token as it is written. A message quotes a token as it is written
too, unless it is a text, and a text is never what an error has found.

## Main definitions

* `Span.Covers`: A span is a part of a source and reads as a text.
* `SyntaxError.Marks`, `TemplateError.Marks`: What an error says about the part that it
  marks.

## Theorems

* `covers_of_scanSpanned`: What is marked for an error of the scanner.
* `getElem?_of_overfills`: What is too deep starts with the token that the error points at.
* `marks_of_parse`: What is marked for an error of the reader.
* `render_error_marks`: What is marked for an error of rendering.
-/

namespace Stencil

open Grammar

/-- The span is a part of the source that is not empty and lies between characters, and it
    reads as the text. -/
structure Span.Covers (s : Span) (source text : String) : Prop where
  nonempty : s.start < s.stop
  within : s.stop ≤ source.utf8ByteSize
  slice : s.slice? source = some text

/-- A syntax error marks this part of a source that has these tokens, and it reads as the
    text. It is the token that was found, or the one that opens what is not closed or is too
    deep. Where the tokens ended too early it is the last one. -/
def SyntaxError.Marks (tokens : List Spanned) (span : Span) (text : String) : SyntaxError → Prop
  | .unexpected p _ (some t) => tokens[p]? = some ⟨t, span⟩ ∧ text = t.shown
  | .missingExpression p (some t) => tokens[p]? = some ⟨t, span⟩ ∧ text = t.shown
  | .unexpected _ _ none => ∃ t ∈ tokens.getLast?, span = t.span
  | .missingExpression _ none => ∃ t ∈ tokens.getLast?, span = t.span
  | .integerTooBig p literal => tokens[p]? = some ⟨.integer literal, span⟩ ∧ text = literal
  | .unterminatedArray p => tokens[p]? = some ⟨.bracketOpen, span⟩ ∧ text = "["
  | .unterminatedBlock _ p => tokens[p]? = some ⟨.tagOpen, span⟩ ∧ text = "[%"
  | .tooDeep p => Overfills 256 (tokens.map Spanned.token) p ∧
      (tokens[p]? = some ⟨.bracketOpen, span⟩ ∧ text = "[" ∨
        tokens[p]? = some ⟨.tagOpen, span⟩ ∧ text = "[%")

/-- An error marks this part of the source, and it reads as the text. Of the scanner's
    errors it is the character that starts no token. A fault marks nothing. -/
def TemplateError.Marks (source : String) (span : Span) (text : String) : TemplateError → Prop
  | .scan e => span = e.span ∧ text = String.singleton e.found
  | .parse e => ∃ tokens, scanSpanned source = .ok tokens ∧ e.Marks tokens span text
  | .run _ => False

/-- The bytes of a text are those of its characters. -/
theorem byteLength_toList (s : String) : byteLength s.toList = s.utf8ByteSize := by
  have hbytes : s.toByteArray = (utf8Bytes s.toList).toByteArray := String.utf8Encode_toList.symm
  rw [← length_utf8Bytes, ← List.size_toByteArray, ← hbytes]
  rfl

/-- What is sliced out of a source lies in it. -/
theorem Span.Covers.of_slice {s : Span} {source text : String} (hlt : s.start < s.stop)
    (hslice : s.slice? source = some text) : s.Covers source text := by
  refine ⟨hlt, ?_, hslice⟩
  rcases Span.slice?_eq_some_iff.mp hslice with ⟨pre, post, hsource, hpre, htext⟩
  rw [← byteLength_toList, hsource, byteLength_append, byteLength_append]
  omega

/-- An error of the scanner marks the character at which no token starts. -/
theorem covers_of_scanSpanned {source : String} {e : ScanError}
    (h : scanSpanned source = .error e) :
    e.span.Covers source (String.singleton e.found) := by
  exact .of_slice (Nat.lt_add_of_pos_right e.found.utf8Size_pos) (slice?_of_scanSpanned_error h)

section

variable {source text : String} {tokens : List Spanned} {t : Token} {span : Span}
  {us vs ts : List Token} {p : Nat} {e : SyntaxError}

/-- The tag that opens a block starts with the opening of a tag. -/
theorem getElem?_opening {kind : BlockKind} {opening body : List Token} (h : Opening kind opening) :
    (us ++ opening ++ body)[us.length]? = some .tagOpen := by
  rw [List.append_assoc]
  cases h <;> exact getElem?_seam us _ _

/-- What is too deep starts with the bracket of an array or with the opening of a tag. -/
theorem getElem?_of_overfills {m : Nat} (h : Overfills m ts p) :
    ts[p]? = some .bracketOpen ∨ ts[p]? = some .tagOpen := by
  rcases h with ⟨us, t, vs, _, rfl, _, _, hentered, _⟩
  cases hentered with
  | array => exact .inl (getElem?_seam us vs _)
  | @block kind front opening hopening hus =>
      refine .inr ?_
      rw [← List.singleton_append, ← List.append_assoc, hus]
      exact getElem?_opening hopening

/-- An expression's token is quoted as it is written. -/
theorem shown_of_mode (h : t.mode = .expression) : t.written = t.shown := by
  cases t with
  | text s => exact nomatch h
  | _ => rfl

/-- Under the number of a token its span is found. -/
theorem getElem?_of_tokenSpan? (hspan : TemplateError.tokenSpan? tokens p = some span)
    (h : (tokens.map Spanned.token)[p]? = some t) : tokens[p]? = some ⟨t, span⟩ := by
  rw [List.getElem?_map] at h
  rcases Option.map_eq_some_iff.mp h with ⟨u, hu, rfl⟩
  rw [TemplateError.tokenSpan?, hu] at hspan
  cases hspan
  exact hu

/-- Where there is no token of a number, the last one is found. -/
theorem getLast?_of_tokenSpan? (hspan : TemplateError.tokenSpan? tokens p = some span)
    (h : (tokens.map Spanned.token)[p]? = none) : ∃ t ∈ tokens.getLast?, span = t.span := by
  rw [List.getElem?_map, Option.map_eq_none_iff] at h
  rw [TemplateError.tokenSpan?, h] at hspan
  rcases Option.map_eq_some_iff.mp hspan with ⟨u, hu, rfl⟩
  exact ⟨u, hu, rfl⟩

/-- A token marks itself. -/
theorem Accounts.covers (h : Accounts source tokens) (ht : ⟨t, span⟩ ∈ tokens) :
    span.Covers source t.written :=
  .of_slice (h.nonempty _ ht) (h.slice _ ht)

/-- What an error has found is marked, and reads as the error quotes it. -/
theorem covers_of_offends (h : Accounts source tokens)
    (hspan : TemplateError.tokenSpan? tokens p = some span)
    (hoffends : Offends (tokens.map Spanned.token) p (some t)) :
    tokens[p]? = some ⟨t, span⟩ ∧ span.Covers source t.shown := by
  have htoken := getElem?_of_tokenSpan? hspan hoffends.1
  refine ⟨htoken, ?_⟩
  -- A text is never found where it offends, and all else is quoted as it is written.
  rw [← shown_of_mode (mode_of_offends h.arranged hoffends)]
  exact h.covers (List.mem_of_getElem? htoken)

/-- Where the tokens ended too early, the last one is marked. -/
theorem covers_of_offends_none (h : Accounts source tokens)
    (hspan : TemplateError.tokenSpan? tokens p = some span)
    (hoffends : Offends (tokens.map Spanned.token) p none) :
    ∃ text, span.Covers source text ∧ ∃ t ∈ tokens.getLast?, span = t.span := by
  rcases getLast?_of_tokenSpan? hspan hoffends.1 with ⟨t, ht, rfl⟩
  exact ⟨_, h.covers (List.mem_of_getLast? ht), t, ht, rfl⟩

/-- An error of the reader marks what it says. -/
theorem marks_of_parse (h : Accounts source tokens)
    (hparse : parse (tokens.map Spanned.token) = .error e)
    (hspan : TemplateError.tokenSpan? tokens e.position = some span) :
    ∃ text, span.Covers source text ∧ e.Marks tokens span text := by
  -- A sign that stands at the position is marked, whatever the error is.
  have hsign : ∀ t, (tokens.map Spanned.token)[e.position]? = some t →
      tokens[e.position]? = some ⟨t, span⟩ ∧ span.Covers source t.written := by
    intro t ht
    have htoken := getElem?_of_tokenSpan? hspan ht
    exact ⟨htoken, h.covers (List.mem_of_getElem? htoken)⟩
  by_cases hdeep : ∃ p, e = .tooDeep p
  · rcases hdeep with ⟨p, rfl⟩
    have hoverfills := overfills_of_readTree hparse
    rcases getElem?_of_overfills hoverfills with hbracket | htag
    · rcases hsign _ hbracket with ⟨htoken, hcovers⟩
      exact ⟨_, hcovers, hoverfills, .inl ⟨htoken, rfl⟩⟩
    · rcases hsign _ htag with ⟨htoken, hcovers⟩
      exact ⟨_, hcovers, hoverfills, .inr ⟨htoken, rfl⟩⟩
  · have hpoints := (pointsInto_of_readTree hparse fun p hp => hdeep ⟨p, hp⟩).2
    cases e with
    | unexpected p expected found =>
        cases found with
        | some t =>
            rcases covers_of_offends h hspan hpoints with ⟨htoken, hcovers⟩
            exact ⟨_, hcovers, htoken, rfl⟩
        | none => exact covers_of_offends_none h hspan hpoints
    | missingExpression p found =>
        cases found with
        | some t =>
            rcases covers_of_offends h hspan hpoints with ⟨htoken, hcovers⟩
            exact ⟨_, hcovers, htoken, rfl⟩
        | none => exact covers_of_offends_none h hspan hpoints
    | unterminatedArray p =>
        -- The array that is still open at the end opens with its bracket.
        rcases (hpoints.2 p).mpr rfl with ⟨front, inner, hts, rfl, _⟩
        rcases hsign _ (by rw [hts]; exact getElem?_seam front inner _) with ⟨htoken, hcovers⟩
        exact ⟨_, hcovers, htoken, rfl⟩
    | unterminatedBlock kind p =>
        rcases (hpoints.2 kind p).mpr ⟨rfl, rfl⟩ with
          ⟨front, opening, body, _, hts, rfl, hopening, _⟩
        rcases hsign _ (by rw [hts]; exact getElem?_opening hopening) with ⟨htoken, hcovers⟩
        exact ⟨_, hcovers, htoken, rfl⟩
    | integerTooBig p literal =>
        rcases hsign _ hpoints.1 with ⟨htoken, hcovers⟩
        exact ⟨_, hcovers, htoken, rfl⟩
    | tooDeep p => exact absurd ⟨p, rfl⟩ hdeep

/-- For every error of the reader there is a token to mark. -/
theorem tokenSpan?_ne_none (hparse : parse (tokens.map Spanned.token) = .error e) :
    TemplateError.tokenSpan? tokens p ≠ none := by
  intro hnone
  rw [TemplateError.tokenSpan?, Option.map_eq_none_iff] at hnone
  have hlast : tokens.getLast? = none := by
    cases htoken : tokens[p]? with
    | none => rwa [htoken] at hnone
    | some t =>
        rw [htoken] at hnone
        exact nomatch hnone
  -- No tokens at all are a template.
  rw [List.getLast?_eq_none_iff.mp hlast] at hparse
  exact nomatch hparse

end

/-- The stage that an error of rendering comes from. -/
theorem render_error_cases {source : String} {vars : Vars} {e : TemplateError}
    (h : render source vars = .error e) :
    (∃ e', scanSpanned source = .error e' ∧ e = .scan e') ∨
      (∃ tokens e', scanSpanned source = .ok tokens ∧
        parse (tokens.map Spanned.token) = .error e' ∧ e = .parse e') ∨
      ∃ f, e = .run f := by
  unfold render readTemplate scan at h
  cases hscan : scanSpanned source with
  | error e' =>
      rw [hscan] at h
      cases h
      exact .inl ⟨e', rfl, rfl⟩
  | ok tokens =>
      rw [hscan] at h
      simp only at h
      cases hparse : parse (tokens.map Spanned.token) with
      | error e' =>
          rw [hparse] at h
          cases h
          exact .inr (.inl ⟨tokens, e', rfl, hparse, rfl⟩)
      | ok root =>
          rw [hparse] at h
          simp only [renderNode] at h
          cases hrun : root.run vars with
          | error f =>
              rw [hrun] at h
              cases h
              exact .inr (.inr ⟨f, rfl⟩)
          | ok output =>
              rw [hrun] at h
              cases h

/-- Where rendering fails, the error marks a part of the source unless it is a fault of the
    run. The part is not empty, it lies in the source between characters, and it reads as
    what the error is about. -/
theorem render_error_marks {source : String} {vars : Vars} {e : TemplateError}
    (h : render source vars = .error e) :
    (e.span? source = none ↔ ∃ f, e = .run f) ∧
      ∀ span, e.span? source = some span →
        ∃ text, span.Covers source text ∧ e.Marks source span text := by
  rcases render_error_cases h with ⟨e', hscan, rfl⟩ | ⟨tokens, e', hscan, hparse, rfl⟩ | ⟨f, rfl⟩
  · refine ⟨⟨nofun, fun ⟨f, hf⟩ => nomatch hf⟩, fun span hspan => ?_⟩
    cases hspan
    exact ⟨_, covers_of_scanSpanned hscan, rfl, rfl⟩
  · have hspan? : TemplateError.span? source (.parse e') =
        TemplateError.tokenSpan? tokens e'.position := by
      simp only [TemplateError.span?, hscan]
    rw [hspan?]
    refine ⟨⟨fun hnone => absurd hnone (tokenSpan?_ne_none hparse), fun ⟨f, hf⟩ => nomatch hf⟩, ?_⟩
    intro span hspan
    rcases marks_of_parse (scanSpanned_eq_ok_iff.mp hscan).accounts hparse hspan with
      ⟨text, hcovers, hmarks⟩
    exact ⟨text, hcovers, tokens, hscan, hmarks⟩
  · exact ⟨⟨fun _ => ⟨f, rfl⟩, fun _ => rfl⟩, nofun⟩

theorem render_error_marks_accented :
    render "é[% [1 x" .empty =
        .error (.parse (.unexpected 4 .arrayDelimiter (some (.identifier "x")))) ∧
      ∃ text, (Span.mk 8 9).Covers "é[% [1 x" text ∧
        TemplateError.Marks "é[% [1 x" ⟨8, 9⟩ text
          (.parse (.unexpected 4 .arrayDelimiter (some (.identifier "x")))) := by
  have h : render "é[% [1 x" .empty
      = .error (.parse (.unexpected 4 .arrayDelimiter (some (.identifier "x")))) := by
    decide +kernel
  have hspan : TemplateError.span? "é[% [1 x" (.parse (.unexpected 4 .arrayDelimiter
      (some (.identifier "x")))) = some ⟨8, 9⟩ := by decide +kernel
  exact ⟨h, (render_error_marks h).2 _ hspan⟩

end Stencil
