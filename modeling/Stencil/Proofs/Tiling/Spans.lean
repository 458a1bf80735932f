import Mathlib.Data.List.Chain
import Stencil.Proofs.Tiling.Scanning

/-!
# Spans Account for the Source

What scanning says about where its tokens stand is right down to the last byte.

The tokens of a source tile it. A tiling is given from the front to the back, and each
fact about it follows by going through the tiles: where each one stands, that none
starts before the one in front of it stops, and what the bytes are that no tile covers.
`Accounts` gathers these for a whole source.

## Main definitions

* `InTag`: A byte stands behind the opening of a tag and in front of its end.
* `Accounts`: Tokens with their spans account for a source.

## Theorems

* `slice?_eq_some_iff`: A slice is what stands at a span between characters.
* `Tiles.slice`: A tile covers the characters that its token is written with.
* `Tiles.uncovered`: What no tile covers is blank and stands inside a tag.
* `Tiles.accounts`: A tiling of a source accounts for it.
* `accounts_of_scanSpanned`: The tokens of a source with their spans account for it.
-/

namespace Stencil

namespace Span

theorem dropBytes?_append (pre cs : List Char) :
    dropBytes? (byteLength pre) (pre ++ cs) = some cs := by
  induction pre with
  | nil => cases cs <;> rfl
  | cons c pre ih =>
      -- The count of bytes is positive, and what is left of it behind `c` is that of `pre`.
      rcases hn : byteLength (c :: pre) with _ | n
      · have hpos := byteLength_pos (List.cons_ne_nil c pre)
        omega
      · rw [byteLength_cons] at hn
        rw [List.cons_append, dropBytes?, if_pos (by omega),
          show n + 1 - c.utf8Size = byteLength pre by omega, ih]

theorem takeBytes?_append (w cs : List Char) : takeBytes? (byteLength w) (w ++ cs) = some w := by
  induction w with
  | nil => cases cs <;> rfl
  | cons c w ih =>
      rcases hn : byteLength (c :: w) with _ | n
      · have hpos := byteLength_pos (List.cons_ne_nil c w)
        omega
      · rw [byteLength_cons] at hn
        rw [List.cons_append, takeBytes?, if_pos (by omega),
          show n + 1 - c.utf8Size = byteLength w by omega, ih, Option.map_some]

/-- The characters after some bytes are left where those take up the bytes. -/
theorem dropBytes?_eq_some_iff {n : Nat} {cs ds : List Char} :
    dropBytes? n cs = some ds ↔ ∃ pre, cs = pre ++ ds ∧ byteLength pre = n := by
  constructor
  · intro h
    induction n, cs using dropBytes?.induct with
    | case1 cs =>
        rw [dropBytes?] at h
        exact ⟨[], Option.some.inj h, rfl⟩
    | case2 n => exact nomatch h
    | case3 n c cs hsize ih =>
        rw [dropBytes?, if_pos hsize] at h
        rcases ih h with ⟨pre, rfl, hpre⟩
        refine ⟨c :: pre, rfl, ?_⟩
        rw [byteLength_cons]
        omega
    | case4 n c cs hsize =>
        rw [dropBytes?, if_neg hsize] at h
        exact nomatch h
  · rintro ⟨pre, rfl, rfl⟩
    exact dropBytes?_append pre ds

theorem takeBytes?_eq_some_iff {n : Nat} {cs w : List Char} :
    takeBytes? n cs = some w ↔ ∃ post, cs = w ++ post ∧ byteLength w = n := by
  constructor
  · intro h
    induction n, cs using takeBytes?.induct generalizing w with
    | case1 cs =>
        rw [takeBytes?] at h
        cases h
        exact ⟨cs, rfl, rfl⟩
    | case2 n => exact nomatch h
    | case3 n c cs hsize ih =>
        rw [takeBytes?, if_pos hsize] at h
        rcases Option.map_eq_some_iff.mp h with ⟨w', hw', rfl⟩
        rcases ih hw' with ⟨post, rfl, hlength⟩
        refine ⟨post, rfl, ?_⟩
        rw [byteLength_cons]
        omega
    | case4 n c cs hsize =>
        rw [takeBytes?, if_neg hsize] at h
        exact nomatch h
  · rintro ⟨post, rfl, rfl⟩
    exact takeBytes?_append w post

/-- A slice is what stands between the two ends of a span, if both are between
    characters. -/
theorem slice?_eq_some_iff {s : Span} {source w : String} :
    s.slice? source = some w ↔ ∃ pre post, source.toList = pre ++ (w.toList ++ post) ∧
      byteLength pre = s.start ∧ byteLength w.toList = s.stop - s.start := by
  rw [slice?, Option.map_eq_some_iff]
  constructor
  · rintro ⟨cs, hslice, rfl⟩
    rcases Option.bind_eq_some_iff.mp hslice with ⟨ds, hdrop, htake⟩
    rcases dropBytes?_eq_some_iff.mp hdrop with ⟨pre, hsource, hpre⟩
    rcases takeBytes?_eq_some_iff.mp htake with ⟨post, rfl, hlength⟩
    rw [String.toList_ofList]
    exact ⟨pre, post, hsource, hpre, hlength⟩
  · -- Both counts of bytes end between characters, in front of `w` and behind it.
    rintro ⟨pre, post, hsource, hpre, hlength⟩
    refine ⟨w.toList, ?_, String.ofList_toList⟩
    rw [hsource, ← hpre, dropBytes?_append, Option.bind_some, hpre, ← hlength, takeBytes?_append]

end Span

/-- The bytes of the six blanks. -/
def blankBytes : List UInt8 :=
  [0x20, 0x09, 0x0d, 0x0a, 0x0c, 0x0b]

/-- The byte stands behind the opening of a tag, and in front of the next end of a tag if
    there is one. -/
def InTag (tokens : List Spanned) (i : Nat) : Prop :=
  ∃ o ∈ tokens, o.token = .tagOpen ∧ o.span.stop ≤ i ∧
    ∀ c ∈ tokens, c.token = .tagClose → o.span.start < c.span.start → i < c.span.start

/-- Tokens with their spans account for a source. -/
structure Accounts (source : String) (tokens : List Spanned) : Prop where
  /-- No span is empty. -/
  nonempty : ∀ t ∈ tokens, t.span.start < t.span.stop
  /-- What stands at a span is the token as it is written. -/
  slice : ∀ t ∈ tokens, t.span.slice? source = some t.token.written
  /-- Each token stops before the next ones start. -/
  ordered : tokens.Pairwise fun t u => t.span.stop ≤ u.span.start
  /-- A byte outside of all spans is blank and stands inside a tag. -/
  uncovered : ∀ (i : Nat) (h : i < source.toByteArray.size),
    (∀ t ∈ tokens, ¬ (t.span.start ≤ i ∧ i < t.span.stop)) →
    source.toByteArray[i] ∈ blankBytes ∧ InTag tokens i
  /-- The tokens may follow each other. -/
  arranged : Arranged .literal (tokens.map Spanned.token)
  /-- Tokens that join have a gap between them. -/
  maximal : tokens.IsChain fun t u => t.token.Joins u.token → t.span.stop < u.span.start

/-- The bytes of some characters in UTF-8. -/
def utf8Bytes (cs : List Char) : List UInt8 :=
  cs.flatMap String.utf8EncodeChar

theorem length_utf8Bytes (cs : List Char) : (utf8Bytes cs).length = byteLength cs := by
  induction cs with
  | nil => rfl
  | cons c cs ih =>
      rw [utf8Bytes, List.flatMap_cons, List.length_append, String.length_utf8EncodeChar,
        ← utf8Bytes, ih, byteLength_cons]

theorem utf8Bytes_of_isGap {c : Char} (h : isGap c) :
    c.utf8Size = 1 ∧ ∃ b ∈ blankBytes, String.utf8EncodeChar c = [b] := by
  simp only [isGap, Bool.or_eq_true, beq_iff_eq] at h
  rcases h with ((((rfl | rfl) | rfl) | rfl) | rfl) | rfl <;> exact ⟨rfl, _, by decide, rfl⟩

namespace Tiles

variable {m : Mode} {k : Nat} {cs : List Char} {ts : List Spanned}

/-- A tile covers the characters that its token is written with. -/
theorem slice (h : Tiles m k cs ts) : ∀ t ∈ ts, t.token.written.toList ≠ [] ∧
    ∃ pre post, cs = pre ++ (t.token.written.toList ++ post) ∧ t.span.start = k + byteLength pre ∧
      t.span.stop = t.span.start + byteLength t.token.written.toList := by
  induction h with
  | done => nofun
  | @gap k c cs ts _ _ ih =>
      intro t ht
      rcases ih t ht with ⟨hnil, pre, post, rfl, hstart, hstop⟩
      -- The blank is one more character in front of the tile.
      refine ⟨hnil, c :: pre, post, rfl, ?_, hstop⟩
      rw [hstart, byteLength_cons, Nat.add_assoc]
  | @token m k t cs ts _ hwf _ _ ih =>
      intro u hu
      rcases List.mem_cons.mp hu with rfl | hu
      · exact ⟨Token.written_ne_nil hwf, [], cs, rfl, rfl, rfl⟩
      · -- The whole first tile is in front of the others.
        rcases ih u hu with ⟨hnil, pre, post, rfl, hstart, hstop⟩
        refine ⟨hnil, t.written.toList ++ pre, post, (List.append_assoc _ _ _).symm, ?_, hstop⟩
        rw [hstart, byteLength_append, Nat.add_assoc]

theorem ordered (h : Tiles m k cs ts) : ts.Pairwise fun t u => t.span.stop ≤ u.span.start := by
  induction h with
  | done => exact .nil
  | gap _ _ ih => exact ih
  | token _ _ _ hrest ih => exact .cons hrest.le_start ih

theorem arranged (h : Tiles m k cs ts) : Arranged m (ts.map Spanned.token) := by
  induction h with
  | done => trivial
  | gap _ _ ih => exact ih
  | token hmode hwf hseparate _ ih =>
      refine ⟨hmode, hwf, fun u hu => ?_, ih⟩
      rw [List.head?_map] at hu
      rcases Option.map_eq_some_iff.mp hu with ⟨v, hv, rfl⟩
      exact (hseparate v hv).1

theorem maximal (h : Tiles m k cs ts) :
    ts.IsChain fun t u => t.token.Joins u.token → t.span.stop < u.span.start := by
  induction h with
  | done => exact .nil
  | gap _ _ ih => exact ih
  | token _ _ hseparate _ ih => exact List.isChain_cons.mpr ⟨fun u hu => (hseparate u hu).2, ih⟩

/-- A tag is open in front of what is left of a source and not closed up to a byte. -/
def OpenUpTo (m : Mode) (tokens : List Spanned) (p : Nat) : Prop :=
  m = .expression ∧ ∀ c ∈ tokens, c.token = .tagClose → p < c.span.start

/-- Behind a tile, a tag is open that was open in front of it or that it opens. -/
theorem openUpTo_or_inTag {t : Spanned} {p : Nat} (hbehind : t.span.stop ≤ p)
    (h : OpenUpTo (m.after t.token) ts p) : OpenUpTo m (t :: ts) p ∨ InTag (t :: ts) p := by
  rcases h with ⟨hmode, hclose⟩
  have hcloses : t.token ≠ .tagClose → ∀ c ∈ t :: ts, c.token = .tagClose → p < c.span.start := by
    intro ht c hc hctoken
    rcases List.mem_cons.mp hc with rfl | hc
    · exact absurd hctoken ht
    · exact hclose c hc hctoken
  cases htoken : t.token with
  | tagOpen =>
      -- The tile opens the tag that the byte stands in.
      rw [htoken] at hcloses
      exact .inr ⟨t, List.mem_cons_self, htoken, hbehind, fun c hc h _ => hcloses nofun c hc h⟩
  | tagClose =>
      -- Behind the end of a tag none is open.
      rw [htoken] at hmode
      exact nomatch hmode
  | _ =>
      -- Any other tile leaves the mode as it was.
      rw [htoken] at hmode hcloses
      exact .inl ⟨hmode, hcloses nofun⟩

theorem inTag_cons {t : Spanned} {p : Nat} (hlt : t.span.start < t.span.stop)
    (hstart : ∀ u ∈ ts, t.span.stop ≤ u.span.start) (h : InTag ts p) : InTag (t :: ts) p := by
  rcases h with ⟨o, ho, hotoken, hop, hclose⟩
  refine ⟨o, List.mem_cons_of_mem _ ho, hotoken, hop, fun c hc hctoken hoc => ?_⟩
  rcases List.mem_cons.mp hc with rfl | hc
  · -- The tile stands in front of the opening and not behind it.
    have hle := hstart o ho
    omega
  · exact hclose c hc hctoken hoc

/-- A byte that no tile covers is blank. It stands inside a tag: one that is open at the
    start and not closed in front of it, or one that opens later. -/
theorem uncovered (h : Tiles m k cs ts) {p : Nat} {b : UInt8} (hp : k ≤ p)
    (hb : (utf8Bytes cs)[p - k]? = some b)
    (hfree : ∀ t ∈ ts, ¬ (t.span.start ≤ p ∧ p < t.span.stop)) :
    b ∈ blankBytes ∧ (OpenUpTo m ts p ∨ InTag ts p) := by
  induction h with
  | done => exact nomatch hb
  | @gap k c cs ts hgap hrest ih =>
      rcases utf8Bytes_of_isGap hgap with ⟨hsize, b', hb', hbytes⟩
      rw [utf8Bytes, List.flatMap_cons, hbytes, List.singleton_append, List.getElem?_cons] at hb
      by_cases hfirst : p - k = 0
      · -- The byte is the blank itself, and no tile comes in front of it.
        rw [if_pos hfirst] at hb
        cases Option.some.inj hb
        refine ⟨hb', .inl ⟨rfl, fun c hc _ => ?_⟩⟩
        have hstart := hrest.le_start c hc
        omega
      · rw [if_neg hfirst, show p - k - 1 = p - (k + c.utf8Size) by omega] at hb
        exact ih (by omega) hb hfree
  | @token m k t cs ts hmode hwf _ hrest ih =>
      have hpos := byteLength_pos (Token.written_ne_nil hwf)
      -- The byte is not the tile's, so it stands behind it.
      have hbehind : k + byteLength t.written.toList ≤ p := by
        have hnot := hfree _ List.mem_cons_self
        simp only at hnot
        omega
      rw [utf8Bytes, List.flatMap_append, ← utf8Bytes, ← utf8Bytes, List.getElem?_append_right
        (by rw [length_utf8Bytes]; omega), length_utf8Bytes, Nat.sub_sub] at hb
      rcases ih hbehind hb fun u hu => hfree u (List.mem_cons_of_mem _ hu) with
        ⟨hblank, hopen | hin⟩
      · exact ⟨hblank, openUpTo_or_inTag hbehind hopen⟩
      · have hlt : k < k + byteLength t.written.toList := by omega
        exact ⟨hblank, .inr (inTag_cons hlt hrest.le_start hin)⟩

/-- A tiling of a source accounts for it. -/
theorem accounts {source : String} (h : Tiles .literal 0 source.toList ts) :
    Accounts source ts where
  nonempty t ht := by
    rcases h.slice t ht with ⟨hnil, _, _, _, _, hstop⟩
    have hpos := byteLength_pos hnil
    omega
  slice t ht := by
    rcases h.slice t ht with ⟨_, pre, post, hsource, hstart, hstop⟩
    exact Span.slice?_eq_some_iff.mpr ⟨pre, post, hsource, by omega, by omega⟩
  ordered := h.ordered
  uncovered i hi hfree := by
    have hbytes : source.toByteArray = (utf8Bytes source.toList).toByteArray :=
      String.utf8Encode_toList.symm
    have hb : (utf8Bytes source.toList)[i - 0]? = some source.toByteArray[i] := by
      rw [Nat.sub_zero, List.getElem?_eq_some_iff]
      simp only [hbytes, List.getElem_toByteArray, exists_prop, and_true]
      rwa [hbytes, List.size_toByteArray] at hi
    -- At the start of the source no tag is open.
    rcases h.uncovered (Nat.zero_le i) hb hfree with ⟨hblank, ⟨hopen, _⟩ | hin⟩
    · exact nomatch hopen
    · exact ⟨hblank, hin⟩
  arranged := h.arranged
  maximal := h.maximal

end Tiles

/-- The tokens of a source with their spans account for it. -/
theorem accounts_of_scanSpanned {source : String} {tokens : List Spanned}
    (h : scanSpanned source = .ok tokens) : Accounts source tokens :=
  (scanSpanned_eq_ok_iff.mp h).accounts

theorem accounts_of_scanSpanned_loneBracket :
    scanSpanned "é[[%x %]" = .ok [⟨.text "é[", 0, 3⟩, ⟨.tagOpen, 3, 5⟩, ⟨.identifier "x", 5, 6⟩,
        ⟨.tagClose, 7, 9⟩] ∧
      Accounts "é[[%x %]" [⟨.text "é[", 0, 3⟩, ⟨.tagOpen, 3, 5⟩, ⟨.identifier "x", 5, 6⟩,
        ⟨.tagClose, 7, 9⟩] := by
  have h : scanSpanned "é[[%x %]" = .ok [⟨.text "é[", 0, 3⟩, ⟨.tagOpen, 3, 5⟩,
      ⟨.identifier "x", 5, 6⟩, ⟨.tagClose, 7, 9⟩] := by decide +kernel
  exact ⟨h, accounts_of_scanSpanned h⟩

end Stencil
