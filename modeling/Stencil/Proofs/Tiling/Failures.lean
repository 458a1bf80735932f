import Stencil.Proofs.Tiling.Passing

/-!
# Where Scanning Fails

The one thing that can stop a scanner, and where it stands.

Outside of the tags every character is text or opens a tag, so nothing fails there. Inside
a tag there are a few characters that no token starts with, and scanning fails at the
first of them that it comes to. A string of a source counts as come to if it is scanned
by itself up to that character and ends inside a tag. That is the same as what the scanner
does on the whole source, because such a character goes on no token: with it or without
it, the tokens in front are the same. In particular a source has at most one stray
character in this sense, and the tokens that are yielded before the error are those of the
source cut there.

## Main definitions

* `signs`: The characters that are a token by themselves.
* `StartsNothing`: A character inside a tag is no blank, and no token starts with it.
* `EndsInTag`: A source is scanned and ends inside a tag.
* `IsStray`: A character of a source is the first that nothing starts with.

## Theorems

* `expressionLexeme?_eq_none_iff`: Where no token starts inside a tag.
* `Scanner.next_ne_error`: Outside of the tags no step fails.
* `exists_cut_of_error`: A source on which scanning fails, cut at the error.
* `slice?_of_scanSpanned_error`: The span of an error is that of the character.
* `scanSpanned_of_isStray`: At a stray character scanning fails.
* `scanSpanned_eq_error_iff`: Scanning fails exactly at the first stray character.
-/

namespace Stencil

/-- The characters that are a token by themselves. -/
def signs : List Char :=
  ['[', ']', ',', '*', '+', '/', '-']

/-- Inside a tag, the character is no blank and no token starts with it. A percent sign
    starts one only together with the bracket behind it. -/
structure StartsNothing (c : Char) (behind : List Char) : Prop where
  notBlank : c ∉ blanks
  notLetter : ¬ c.isLower
  notDigit : ¬ c.isDigit
  notSign : c ∉ signs
  notClose : ¬ (c = '%' ∧ behind.head? = some ']')

/-- A source is scanned into some tokens and ends inside a tag, where a blank or a token
    ends. -/
structure EndsInTag (source : String) (tokens : List Spanned) : Prop where
  scanned : scanSpanned source = .ok tokens
  inTag : Mode.literal.afterAll (tokens.map Spanned.token) = .expression
  boundary : (∃ c ∈ source.toList.getLast?, c ∈ blanks) ∨
    ∃ t ∈ tokens.getLast?, t.span.stop = byteLength source.toList

/-- The character at a byte of a source is stray: what is in front of it is scanned and
    ends inside a tag, and there nothing starts with it. -/
def IsStray (source : String) (k : Nat) (c : Char) : Prop :=
  ∃ pre post tokens, source.toList = pre ++ c :: post ∧ byteLength pre = k ∧
    EndsInTag (.ofList pre) tokens ∧ StartsNothing c post

section Characters

variable {c : Char} {cs : List Char}

theorem sign?_eq_none_iff : sign? c = none ↔ c ∉ signs := by
  unfold sign?
  split
  case h_8 h1 h2 h3 h4 h5 h6 h7 =>
    -- None of the signs is the character.
    simp only [signs, List.mem_cons, List.not_mem_nil, or_false, not_or]
    exact ⟨fun _ => ⟨h1, h2, h3, h4, h5, h6, h7⟩, fun _ => trivial⟩
  all_goals exact ⟨nofun, fun h => absurd (by decide) h⟩

/-- Behind the blanks inside a tag, there is no next token exactly where nothing starts. -/
theorem expressionLexeme?_eq_none_iff (hgap : ¬ isGap c) :
    expressionLexeme? (c :: cs) = none ↔ StartsNothing c cs := by
  constructor
  · intro h
    unfold expressionLexeme? at h
    split at h
    · exact nomatch ‹c :: cs = []›
    · exact nomatch h
    · exact nomatch h
    · rename_i d ds hclose _ heq
      cases heq
      -- What is left is neither a digit nor a letter, and no sign.
      split at h
      · exact nomatch h
      · split at h
        · exact nomatch h
        · rename_i hdigit hlower
          refine ⟨fun hblank => hgap (isGap_of_mem_blanks hblank), hlower, hdigit,
            sign?_eq_none_iff.mp (Option.map_eq_none_iff.mp h), ?_⟩
          rintro ⟨rfl, hhead⟩
          rcases List.head?_eq_some_iff.mp hhead with ⟨rest, rfl⟩
          exact hclose rest rfl rfl
  · intro h
    unfold expressionLexeme?
    split
    · rfl
    · rename_i rest heq
      cases heq
      exact absurd ⟨rfl, rfl⟩ h.notClose
    · rename_i rest heq
      cases heq
      exact absurd rfl h.notDigit
    · rename_i d ds _ _ heq
      cases heq
      have hlower : ¬ isWordStart c := h.notLetter
      rw [if_neg h.notDigit, if_neg hlower, sign?_eq_none_iff.mpr h.notSign, Option.map_none]

/-- Outside of the tags there is a next token as long as there are characters. -/
theorem literalLexeme?_ne_none : literalLexeme? (c :: cs) ≠ none := by
  unfold literalLexeme?
  split
  · exact nomatch ‹c :: cs = []›
  all_goals exact Option.some_ne_none _

theorem StartsNothing.not_isGap (h : StartsNothing c cs) : ¬ isGap c :=
  fun hgap => h.notBlank (mem_blanks_of_isGap hgap)

theorem StartsNothing.not_isWordPart (h : StartsNothing c cs) : ¬ isWordPart c := by
  rw [isWordPart_iff]
  rintro (hlower | hdigit)
  · exact h.notLetter hlower
  · exact h.notDigit hdigit

end Characters

namespace Scanner

variable {s s' : Scanner} {k : Nat} {c : Char} {gap cs : List Char} {e : ScanError}

/-- Outside of the tags no step fails. -/
theorem next_ne_error (hmode : s.mode = .literal) : s.next ≠ (some (.error e), s') := by
  intro h
  rcases next_cases s with ⟨_, hnext⟩ | ⟨l, _, hnext⟩ | ⟨c, cs, hrest, hnone, _⟩
  · exact nomatch h.symm.trans hnext
  · exact nomatch h.symm.trans hnext
  · rcases s with ⟨m, k, rest⟩
    cases hmode
    have hrest : rest = c :: cs := hrest
    rw [hrest] at hnone
    exact literalLexeme?_ne_none hnone

/-- A scanner that stands in front of a character where no token starts is inside a tag, and
    nothing but blanks is in front of the character. -/
theorem startsNothing_of_skipGap (hrest : s.skipGap.rest = c :: cs)
    (hnone : s.skipGap.lexeme? = none) : ∃ gap, (∀ d ∈ gap, Stencil.isGap d) ∧
      s.mode = .expression ∧ s.rest = gap ++ c :: cs ∧
      s.skipGap.offset = s.offset + byteLength gap ∧ StartsNothing c cs := by
  rcases exists_gap s with ⟨gap, hgap, hsplit, hskip⟩
  rw [hskip, hrest] at hnone
  rw [hrest] at hgap hsplit
  cases hm : s.mode with
  | literal =>
      rw [hm] at hnone
      exact absurd hnone literalLexeme?_ne_none
  | expression =>
      rw [hm] at hgap hnone
      have hnotGap := hgap.2 c rfl
      exact ⟨gap, hgap.1, rfl, hsplit, by rw [hskip],
        (expressionLexeme?_eq_none_iff hnotGap).mp hnone⟩

/-- Behind blanks inside a tag, a character where nothing starts is all that is yielded. -/
theorem items_of_startsNothing (hgap : ∀ d ∈ gap, Stencil.isGap d) (h : StartsNothing c cs) :
    items ⟨.expression, k, gap ++ c :: cs⟩ = [.error ⟨c, k + byteLength gap⟩] := by
  have hstop : IsGap .expression gap (c :: cs) := by
    refine ⟨hgap, fun d hd => ?_⟩
    cases hd
    exact h.not_isGap
  have hskip := skipGap_of_isGap (k := k) hstop
  have hrest : (skipGap ⟨.expression, k, gap ++ c :: cs⟩).rest = c :: cs := by rw [hskip]
  rw [items_of_stray hrest, hskip]
  rw [hskip]
  exact (expressionLexeme?_eq_none_iff h.not_isGap).mpr h

/-- Blanks alone are the end of a scanner inside a tag. -/
theorem items_of_gap (hgap : ∀ d ∈ gap, Stencil.isGap d) : items ⟨.expression, k, gap⟩ = [] := by
  have hskip : skipGap ⟨.expression, k, gap ++ []⟩ = ⟨.expression, k + byteLength gap, []⟩ :=
    skipGap_of_isGap ⟨hgap, nofun⟩
  rw [List.append_nil] at hskip
  exact items_of_end (by rw [hskip])

end Scanner

section Cuts

variable {source : String} {e : ScanError} {us ts : List Spanned} {m : Mode} {k : Nat}
  {cs : List Char}

/-- Putting texts together does not change the mode behind them. -/
theorem afterAll_mergeText (m : Mode) (us : List Spanned) :
    m.afterAll ((mergeText us).map Spanned.token) = m.afterAll (us.map Spanned.token) := by
  induction us generalizing m with
  | nil => rfl
  | cons t us ih =>
      have hcons : m.afterAll ((consMerged t (mergeText us)).map Spanned.token)
          = (m.after t.token).afterAll ((mergeText us).map Spanned.token) := by
        unfold consMerged
        split
        · rename_i htext hmerged
          rw [htext, hmerged]
          rfl
        · rfl
      exact hcons.trans (ih _)

/-- Where tiles end, a blank or a token ends. -/
theorem Tiles.boundary (h : Tiles m k cs ts) : ts = [] ∧ cs = [] ∨
    (∃ c ∈ cs.getLast?, c ∈ blanks) ∨ ∃ t ∈ ts.getLast?, t.span.stop = k + byteLength cs := by
  induction h with
  | done => exact .inl ⟨rfl, rfl⟩
  | @gap k c cs ts hgap _ ih =>
      refine .inr ?_
      rcases ih with ⟨_, rfl⟩ | ⟨d, hd, hblank⟩ | ⟨t, ht, hstop⟩
      · exact .inl ⟨c, rfl, mem_blanks_of_isGap hgap⟩
      · refine .inl ⟨d, ?_, hblank⟩
        rw [List.getLast?_cons, Option.mem_def.mp hd]
        rfl
      · refine .inr ⟨t, ht, ?_⟩
        rw [hstop, byteLength_cons, Nat.add_assoc]
  | @token m k t cs ts _ hwf _ _ ih =>
      refine .inr ?_
      rcases ih with ⟨rfl, rfl⟩ | ⟨d, hd, hblank⟩ | ⟨u, hu, hstop⟩
      · refine .inr ⟨_, rfl, ?_⟩
        rw [List.append_nil]
        rfl
      · refine .inl ⟨d, ?_, hblank⟩
        rw [List.getLast?_append, Option.mem_def.mp hd]
        rfl
      · refine .inr ⟨u, ?_, ?_⟩
        · rw [List.getLast?_cons, Option.mem_def.mp hu]
          rfl
        · rw [hstop, byteLength_append, Nat.add_assoc]

/-- A source whose items are tokens that leave a tag open ends inside it. -/
theorem endsInTag_of_items (hitems : (Scanner.ofString source).items = us.map .ok)
    (hmode : Mode.literal.afterAll (us.map Spanned.token) = .expression) :
    EndsInTag source (mergeText us) := by
  have hscan := scanSpanned_of_items_ok hitems
  have hinTag := (afterAll_mergeText .literal us).trans hmode
  refine ⟨hscan, hinTag, ?_⟩
  rcases (scanSpanned_eq_ok_iff.mp hscan).boundary with ⟨hnil, _⟩ | hblank | ⟨t, ht, hstop⟩
  · -- Without any token no tag is open.
    rw [hnil] at hinTag
    exact nomatch hinTag
  · exact .inl hblank
  · exact .inr ⟨t, ht, by rw [hstop, Nat.zero_add]⟩

/-- A source on which scanning fails, cut at the error: the same tokens are yielded as before
    the error, and they end inside a tag, where nothing starts with the next character. -/
theorem exists_cut_of_error (h : scanSpanned source = .error e) :
    ∃ (us : List Spanned) (pre post : List Char),
    source.toList = pre ++ e.found :: post ∧ byteLength pre = e.start ∧
    (Scanner.ofString source).items = us.map .ok ++ [.error e] ∧
    (Scanner.ofString (.ofList pre)).items = us.map .ok ∧
    Mode.literal.afterAll (us.map Spanned.token) = .expression ∧ StartsNothing e.found post := by
  rcases scanSpanned_eq_error_iff_items.mp h with ⟨us, hitems⟩
  rcases Scanner.passes_of_items_error hitems with ⟨s', cs, hpasses, hrest, hnone, hfound⟩
  rcases Scanner.startsNothing_of_skipGap hrest hnone with
    ⟨gap, hgap, hmode, hsplit, hoffset, hstarts⟩
  rcases hpasses.cut with ⟨pre, hpre, hstart, _, hcut⟩
  have hinTag := Scanner.mode_of_passes hpasses
  have hzero : (Scanner.ofString source).offset = 0 := rfl
  rw [hsplit] at hpre hcut
  rw [hmode] at hcut hinTag
  refine ⟨us, pre ++ gap, cs, ?_, ?_, hitems, ?_, hinTag.symm, hstarts⟩
  · rw [List.append_assoc]
    exact hpre
  · rw [byteLength_append, hfound, hoffset, hstart]
    omega
  · -- In front of the blanks alone, the last token ends as it does in front of the error.
    have hends : Scanner.EndsAlike .expression (gap ++ e.found :: cs) gap := by
      intro d hd
      refine .inl ?_
      rw [List.head?_append, Option.mem_def.mp hd]
      rfl
    have hitems' := Scanner.items_of_passes (hcut gap hends)
    rw [Scanner.items_of_gap hgap, List.append_nil] at hitems'
    rw [← hitems', Scanner.ofString, String.toList_ofList]
    rfl

/-- The span of an error is that of the character it is about. -/
theorem slice?_of_scanSpanned_error (h : scanSpanned source = .error e) :
    e.span.slice? source = some (String.singleton e.found) := by
  rcases exists_cut_of_error h with ⟨us, pre, post, hsource, hstart, _⟩
  refine Span.slice?_eq_some_iff.mpr ⟨pre, post, ?_, hstart, ?_⟩
  · rw [String.toList_singleton]
    exact hsource
  · rw [String.toList_singleton, byteLength_cons, byteLength_nil, ScanError.span]
    simp only [Nat.add_zero, Nat.add_sub_cancel_left]

/-- At a stray character scanning fails. -/
theorem scanSpanned_of_isStray {k : Nat} {c : Char} (h : IsStray source k c) :
    scanSpanned source = .error ⟨c, k⟩ := by
  rcases h with ⟨pre, post, tokens, hsource, rfl, hends, hstarts⟩
  rcases scanSpanned_eq_ok_iff_items.mp hends.scanned with ⟨us, hitems, rfl⟩
  rcases Scanner.passes_of_items_ok hitems with ⟨s', hpasses, hend⟩
  have hmode := Scanner.mode_of_passes hpasses
  rw [← afterAll_mergeText] at hmode
  have hmode : s'.mode = .expression := hmode.trans hends.inTag
  -- All of the front is passed, up to some blanks inside a tag.
  rcases Scanner.exists_gap s' with ⟨gap, hgap, hsplit, _⟩
  rw [hend, List.append_nil] at hsplit
  rw [hmode] at hgap
  rcases hpasses.cut with ⟨front, hfront, hoffset, _, hcut⟩
  have hfront : pre = front ++ gap := by
    rw [← hsplit, ← hfront]
    exact String.toList_ofList.symm
  -- The stray character goes on no word and no number.
  have hends : Scanner.EndsAlike s'.mode s'.rest (gap ++ c :: post) := by
    intro d hd
    rw [hsplit]
    cases gap with
    | nil =>
        cases hd
        exact .inr ⟨hmode, hstarts.not_isWordPart⟩
    | cons g gap => exact .inl hd
  have hitems' := Scanner.items_of_passes (hcut _ hends)
  rw [hmode, Scanner.items_of_startsNothing hgap.1 hstarts] at hitems'
  have hsource' : Scanner.ofString source = ⟨.literal, 0, front ++ (gap ++ c :: post)⟩ := by
    rw [Scanner.ofString, hsource, hfront, List.append_assoc]
  have hzero : (Scanner.ofString (.ofList pre)).offset = 0 := rfl
  have hstart : s'.offset + byteLength gap = byteLength pre := by
    rw [hoffset, hzero, Nat.zero_add, hfront, byteLength_append]
  rw [hstart] at hitems'
  exact scanSpanned_of_items_error (by rw [hsource']; exact hitems')

end Cuts

/-- Scanning a source fails exactly where it has a stray character, at the first one, and the
    span of the error is that of this character alone. The tokens that the scanner yields
    before the error are those of the source cut there, with texts put together. Outside of
    the tags no step of a scanner fails. -/
theorem scanSpanned_eq_error_iff (source : String) :
    (∀ e, scanSpanned source = .error e ↔
      IsStray source e.start e.found ∧ ∀ k c, IsStray source k c → e.start ≤ k) ∧
    (∀ e, scanSpanned source = .error e →
      e.span.slice? source = some (String.singleton e.found) ∧
      ∃ (us : List Spanned) (pre post : List Char), source.toList = pre ++ e.found :: post ∧
        byteLength pre = e.start ∧
        (Scanner.ofString source).items = us.map .ok ++ [.error e] ∧
        scanSpanned (.ofList pre) = .ok (mergeText us)) ∧
    ∀ s : Scanner, s.mode = .literal → ∀ e s', s.next ≠ (some (.error e), s') := by
  refine ⟨fun e => ⟨fun h => ?_, fun h => scanSpanned_of_isStray h.1⟩, fun e h => ?_,
    fun s hmode e s' => Scanner.next_ne_error hmode⟩
  · rcases exists_cut_of_error h with ⟨us, pre, post, hsource, hstart, _, hcut, hmode, hstarts⟩
    refine ⟨⟨pre, post, _, hsource, hstart, endsInTag_of_items hcut hmode, hstarts⟩, ?_⟩
    -- Scanning fails at every stray character, so there is no other.
    intro k c hstray
    rw [scanSpanned_of_isStray hstray] at h
    cases h
    exact Nat.le_refl _
  · rcases exists_cut_of_error h with ⟨us, pre, post, hsource, hstart, hitems, hcut, _, _⟩
    exact ⟨slice?_of_scanSpanned_error h, us, pre, post, hsource, hstart, hitems,
      scanSpanned_of_items_ok hcut⟩

/-- A percent sign at the end of a source closes no tag. -/
theorem scanSpanned_eq_error_iff_percent :
    scanSpanned "é[% 1 %" = .error ⟨'%', 7⟩ ∧ IsStray "é[% 1 %" 7 '%' := by
  have h : scanSpanned "é[% 1 %" = .error ⟨'%', 7⟩ := by decide +kernel
  exact ⟨h, (((scanSpanned_eq_error_iff _).1 _).mp h).1⟩

end Stencil
