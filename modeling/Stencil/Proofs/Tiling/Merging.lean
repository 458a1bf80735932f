import Stencil.Proofs.Tiling.Passing

/-!
# Pieces of Text and the Texts They Make

What the scanner yields, and what scanning a source makes of it.

A scanner yields each piece of literal text by itself: a run of characters up to the next
bracket, or a bracket that opens no tag. Scanning puts the pieces that follow each other
together. One way to say so is from the back: a piece goes in front of what the items
behind it make, and this is how `mergeText` is defined. Another is from the front, in
place: a piece behind a text only moves the stop of that text, and the text is then read
out of the source again. The second way could fail, since what stands between the two
ends of a span need not be the pieces one behind the other, nor does a span need to end
between characters. It does not fail, because nothing is skipped between two pieces.

## Main definitions

* `Scanner.call`: What a call of a scanner yields after some others.
* `PieceAt`: A piece of text among the items of a scanner.
* `Merged`: Each longest group of texts is made into one text.
* `Span.read?`: What stands at a span of a source, if it is a range of it.
* `gather`: Texts put together in place.
* `Reaches`: The tokens gathered so far go up to where a scanner is.

## Theorems

* `Scanner.call_eq`: The calls of a scanner yield its items and then nothing.
* `pieceAt_of_passes`: Each text that a scanner yields is a piece of text.
* `merged_mergeText`: Putting texts together makes each group of texts into one.
* `gather_step`: One more item is gathered in place.
* `gather_of_passes`: Putting texts together in place comes to the same.
* `scanSpanned_merges`: Scanning a source yields its items with the texts put together.
-/

namespace Stencil

namespace Scanner

variable {s s' : Scanner} {t : Spanned}

/-- What a scanner yields when it is called after some other calls. -/
def call (s : Scanner) : Nat → Option ScanItem
  | 0 => s.next.1
  | n + 1 => s.next.2.call n

/-- A scanner that has come to the end stays there. -/
theorem items_of_next_none (h : s.next = (none, s')) : s'.items = [] := by
  rcases next_cases s with ⟨hrest, hnext⟩ | ⟨l, _, hnext⟩ | ⟨c, cs, _, _, hnext⟩
  · cases hnext.symm.trans h
    refine items_of_end ?_
    rcases hskip : s.skipGap with ⟨m, k, cs⟩
    rw [hskip] at hrest
    cases hrest
    exact skipGap_rest_nil m k
  · exact nomatch hnext.symm.trans h
  · exact nomatch hnext.symm.trans h

/-- Call after call a scanner yields its items, and behind them nothing. -/
theorem call_eq (s : Scanner) (n : Nat) : s.call n = s.items[n]? := by
  induction n generalizing s with
  | zero =>
      rcases hnext : s.next with ⟨_ | item, s'⟩
      · rw [call, hnext, items_of_none hnext]
        rfl
      · rw [call, hnext, items_of_some hnext]
        rfl
  | succ n ih =>
      rcases hnext : s.next with ⟨_ | item, s'⟩
      · rw [call, hnext, ih, items_of_none hnext, items_of_next_none hnext]
        rfl
      · rw [call, hnext, ih, items_of_some hnext]
        rfl

/-- A text is yielded outside of the tags only. It is a piece of text, and it stands right
    where the scanner is. -/
theorem text_of_next (h : s.next = (some (.ok t), s')) (htext : t.token.isText) :
    ∃ chars, s.mode = .literal ∧ s.rest = chars ++ s'.rest ∧ IsPiece chars s'.rest ∧
      t = ⟨.text (.ofList chars), s.offset, s.offset + byteLength chars⟩ ∧
      s'.mode = .literal ∧ s'.offset = s.offset + byteLength chars := by
  rcases next_ok h with ⟨gap, l, hgap, hrest, hl, haccept⟩
  cases haccept
  rcases s with ⟨m, k, cs⟩
  cases m with
  | literal =>
      have hnil : gap = [] := hgap
      subst hnil
      rcases (spec_of_literalLexeme? hl).1 with ⟨hopen, _⟩ | ⟨hpiece, hchars⟩
      · rw [hopen] at htext
        exact nomatch htext
      · refine ⟨l.chars, rfl, hrest, hchars, ?_, by rw [hpiece]; rfl, rfl⟩
        rw [hpiece]
        rfl
  | expression =>
      have hmode := (spec_of_expressionLexeme? hl).1
      rw [Token.isText_of_mode hmode] at htext
      exact nomatch htext

/-- In front of a text with no bracket at its start a scanner has only yielded a bracket or
    the end of a tag. -/
theorem before_text (h : s.next = (some (.ok t), s')) (hmode : s'.mode = .literal)
    (hbracket : '[' ∉ s'.rest.head?) (hnil : s'.rest ≠ []) :
    t.span.stop = s'.offset ∧ (t.token = .text "[" ∨ t.token = .tagClose) := by
  by_cases htext : t.token.isText
  · rcases text_of_next h htext with ⟨chars, _, _, hpiece, rfl, _, hoffset⟩
    refine ⟨hoffset.symm, .inl ?_⟩
    rcases hpiece with ⟨rfl, _⟩ | ⟨_, _, hhead⟩
    · rfl
    · -- A run goes on up to a bracket or to the end, and here is neither.
      rcases List.exists_cons_of_ne_nil hnil with ⟨c, cs, hcons⟩
      rw [hcons] at hbracket hhead
      exact absurd (congrArg some (hhead c rfl)) hbracket
  · rcases next_ok h with ⟨gap, l, _, _, hl, haccept⟩
    cases haccept
    refine ⟨rfl, .inr ?_⟩
    have hafter : s.mode.after l.token = .literal := hmode
    cases hm : s.mode with
    | literal =>
        rw [hm] at hl hafter
        rcases (spec_of_literalLexeme? hl).1 with ⟨hopen, _⟩ | ⟨hpiece, _⟩
        · rw [hopen] at hafter
          exact nomatch hafter
        · exact absurd (congrArg Token.isText hpiece) htext
    | expression =>
        rw [hm] at hafter
        cases htoken : l.token with
        | tagClose => rfl
        | _ =>
            rw [htoken] at hafter
            exact nomatch hafter

end Scanner

/-- Behind some items of a scanner on a source comes a piece of text. It stands in the source
    at its span and is either a bracket alone that opens no tag, or a run of other
    characters that is as long as can be: it stops in front of a bracket or at the end, and
    starts at the start, behind a bracket alone or behind the end of a tag. -/
def PieceAt (source : String) (front : List Spanned) (t : Spanned) : Prop :=
  ∃ (chars pre post : List Char), t.token = .text (.ofList chars) ∧
    source.toList = pre ++ (chars ++ post) ∧ byteLength pre = t.span.start ∧
    t.span.stop = t.span.start + byteLength chars ∧
    ((chars = ['['] ∧ '%' ∉ post.head?) ∨
      (chars ≠ [] ∧ '[' ∉ chars ∧ (∀ c ∈ post.head?, c = '[') ∧
        (front = [] → t.span.start = 0) ∧
        ∀ u ∈ front.getLast?, u.span.stop = t.span.start ∧
          (u.token = .text "[" ∨ u.token = .tagClose)))

/-- Each text that a scanner yields on a source is a piece of text there. -/
theorem pieceAt_of_passes {source : String} {front back : List Spanned} {t : Spanned}
    {s : Scanner} (h : Scanner.Passes (.ofString source) (front ++ t :: back) s)
    (htext : t.token.isText) : PieceAt source front t := by
  rcases Scanner.passes_append.mp h with ⟨s₁, hfront, hback⟩
  cases hback with
  | @step _ s₂ _ _ _ hnext _ =>
    rcases Scanner.text_of_next hnext htext with ⟨chars, hmode, hrest, hpiece, rfl, _, _⟩
    rcases hfront.cut with ⟨pre, hpre, hoffset, _, _⟩
    have hzero : (Scanner.ofString source).offset = 0 := rfl
    rw [hzero, Nat.zero_add] at hoffset
    refine ⟨chars, pre, s₂.rest, rfl, by rw [← hrest]; exact hpre, hoffset.symm, rfl, ?_⟩
    rcases hpiece with hlone | ⟨hnil, hbracket, hhead⟩
    · exact .inl hlone
    · refine .inr ⟨hnil, hbracket, hhead, fun hfirst => ?_, fun u hu => ?_⟩
      · subst hfirst
        cases hfront
        rfl
      · -- The scanner stood in front of this piece when it had yielded the item before.
        rcases List.getLast?_eq_some_iff.mp hu with ⟨front', rfl⟩
        rcases Scanner.passes_append.mp hfront with ⟨s₀, _, hlast⟩
        cases hlast with
        | step hnext' hnone =>
          cases hnone
          refine Scanner.before_text hnext' hmode (fun hc => hbracket ?_) fun hend => ?_
          · rw [hrest, List.head?_append_of_ne_nil _ hnil] at hc
            exact List.mem_of_mem_head? hc
          · rw [hrest] at hend
            exact hnil (List.append_eq_nil_iff.mp hend).1

/-- Each longest group of texts that follow each other is made into one text, which goes
    from the start of the first to the stop of the last. All else is left as it is. -/
inductive Merged : List Spanned → List Spanned → Prop
  | nil : Merged [] []
  | other {t : Spanned} {us ts : List Spanned} : t.token.isText = false → Merged us ts →
    Merged (t :: us) (t :: ts)
  | texts {first last : Spanned} {group us ts : List Spanned} :
    group.head? = some first → group.getLast? = some last → (∀ t ∈ group, t.token.isText) →
    (∀ u ∈ us.head?, u.token.isText = false) → Merged us ts →
    Merged (group ++ us)
      (⟨.text (String.join (group.map (·.token.written))), first.span.start, last.span.stop⟩ :: ts)

section Merging

variable {us ts : List Spanned} {t u : Spanned}

theorem exists_text (h : t.token.isText) : ∃ a span, t = ⟨.text a, span⟩ := by
  rcases t with ⟨token, span⟩
  cases token with
  | text a => exact ⟨a, span, rfl⟩
  | _ => exact nomatch h

theorem consMerged_of_not_isText (h : t.token.isText = false) : consMerged t ts = t :: ts := by
  refine consMerged_eq_cons ?_
  rintro u - ⟨htext, _⟩
  exact nomatch h.symm.trans htext

/-- A token in front of merged ones goes into the group of texts that they start with. -/
theorem Merged.cons (t : Spanned) (h : Merged us ts) : Merged (t :: us) (consMerged t ts) := by
  cases ht : t.token.isText with
  | false =>
      rw [consMerged_of_not_isText ht]
      exact .other ht h
  | true =>
      rcases exists_text ht with ⟨a, span, rfl⟩
      have hgroup : ∀ u ∈ [Spanned.mk (.text a) span], u.token.isText := by
        intro u hu
        rw [List.mem_singleton.mp hu]
        rfl
      have hone : String.join ([Spanned.mk (.text a) span].map (·.token.written)) = a := by
        rw [List.map_singleton, String.join_cons, String.join_nil, String.append_empty]
        rfl
      cases h with
      | nil =>
          have hmerged : Merged ([⟨.text a, span⟩] ++ []) _ := .texts rfl rfl hgroup nofun .nil
          rw [hone] at hmerged
          exact hmerged
      | @other u us ts hu hus =>
          have hnext : ∀ v ∈ (u :: us).head?, v.token.isText = false := by
            intro v hv
            cases hv
            exact hu
          have hmerged := Merged.texts rfl rfl hgroup hnext (.other hu hus)
          rw [hone] at hmerged
          rw [consMerged_eq_cons]
          · exact hmerged
          · rintro v hv ⟨_, htext⟩
            cases hv
            exact nomatch hu.symm.trans htext
      | @texts first last group us ts hfirst hlast htexts hnext hus =>
          -- The group that is there becomes longer by the text in front of it.
          have hlast' : (⟨.text a, span⟩ :: group : List Spanned).getLast? = some last := by
            rw [List.getLast?_cons, hlast]
            rfl
          have htexts' : ∀ u ∈ (⟨.text a, span⟩ :: group : List Spanned), u.token.isText :=
            List.forall_mem_cons.mpr ⟨rfl, htexts⟩
          have hmerged := Merged.texts rfl hlast' htexts' hnext hus
          rw [List.map_cons, String.join_cons] at hmerged
          exact hmerged

/-- Putting texts together makes each longest group of them into one. -/
theorem merged_mergeText (us : List Spanned) : Merged us (mergeText us) := by
  induction us with
  | nil => exact .nil
  | cons t us ih => exact ih.cons t

end Merging

section Gathering

variable {source : String} {s s' : Scanner} {t : Spanned} {us acc front : List Spanned}
  {a b : String} {span : Span}

/-- The text that stands at a span of a source, if the ends of the span are in order and both
    between characters. -/
def Span.read? (s : Span) (source : String) : Option String :=
  if s.start ≤ s.stop then s.slice? source else none

theorem Span.read?_eq_some {pre post : List Char} {stop : Nat}
    (hsource : source.toList = pre ++ (a.toList ++ post))
    (hstop : stop = byteLength pre + byteLength a.toList) :
    (Span.mk (byteLength pre) stop).read? source = some a := by
  subst hstop
  rw [Span.read?, if_pos (Nat.le_add_right _ _)]
  exact Span.slice?_eq_some_iff.mpr ⟨pre, post, hsource, rfl, (Nat.add_sub_cancel_left ..).symm⟩

/-- Puts items behind the tokens that are there, which come last one first. A text behind a
    text moves the stop of that text, and what is there is then read out of the source.
    There is no outcome if that is not a range of the source between characters. -/
def gather (source : String) : List Spanned → List ScanItem →
    Option (Except ScanError (List Spanned))
  | acc, [] => some (.ok acc.reverse)
  | _, .error e :: _ => some (.error e)
  | acc, .ok t :: items =>
    match t.token, acc with
    | .text _, ⟨.text _, span⟩ :: front =>
      let span : Span := ⟨span.start, t.span.stop⟩
      (span.read? source).bind fun s => gather source (⟨.text s, span⟩ :: front) items
    | _, _ => gather source (t :: acc) items

/-- The tokens that are there, last one first, are where a scanner on a source can go on
    from: a text in front is what stands at its span, up to the scanner. -/
structure Reaches (source : String) (acc : List Spanned) (s : Scanner) : Prop where
  place : ∃ pre, source.toList = pre ++ s.rest ∧ byteLength pre = s.offset
  text : ∀ a span front, acc = ⟨.text a, span⟩ :: front → ∃ pre,
    source.toList = pre ++ (a.toList ++ s.rest) ∧ byteLength pre = span.start ∧
      s.offset = span.start + byteLength a.toList
  apart : acc.IsChain fun t u => ¬ (t.token.isText ∧ u.token.isText)

theorem gather_push (h : ∀ u ∈ acc.head?, ¬ (t.token.isText ∧ u.token.isText))
    (items : List ScanItem) :
    gather source acc (.ok t :: items) = gather source (t :: acc) items := by
  rw [gather]
  -- The first case of the match is excluded, since the two are not both texts.
  rintro a b span front htext rfl
  exact h _ rfl ⟨by rw [htext]; rfl, rfl⟩

/-- Putting two texts together first, or with what is behind them, is the same. -/
theorem consMerged_text_text (a b : String) (s s' : Span) (ts : List Spanned) :
    consMerged ⟨.text a, s⟩ (consMerged ⟨.text b, s'⟩ ts)
      = consMerged ⟨.text (a ++ b), s.start, s'.stop⟩ ts := by
  rcases ts with _ | ⟨⟨token, s''⟩, ts⟩
  · rfl
  · cases token with
    | text c =>
        simp only [consMerged, String.append_assoc]
    | _ => rfl

theorem mergeText_append (us vs : List Spanned) :
    mergeText (us ++ vs) = us.foldr consMerged (mergeText vs) :=
  List.foldr_append

/-- Tokens without a text behind a text are put together already. -/
theorem mergeText_of_apart (h : us.IsChain fun t u => ¬ (t.token.isText ∧ u.token.isText)) :
    mergeText us = us := by
  induction us with
  | nil => rfl
  | cons t us ih =>
      rw [List.isChain_cons] at h
      have hrest : mergeText us = us := ih h.2
      have hcons : consMerged t us = t :: us := consMerged_eq_cons h.1
      rw [mergeText, List.foldr_cons, ← mergeText, hrest, hcons]

/-- One item more: the tokens go on being in place, and what they make with the items behind
    them is still the same. -/
theorem gather_step (h : Reaches source acc s) (hnext : s.next = (some (.ok t), s')) :
    ∃ acc', Reaches source acc' s' ∧
      (∀ items, gather source acc (.ok t :: items) = gather source acc' items) ∧
      ∀ us, mergeText (acc.reverse ++ t :: us) = mergeText (acc'.reverse ++ us) := by
  rcases h.place with ⟨pre, hpre, hoffset⟩
  by_cases htexts : t.token.isText ∧ ∃ u ∈ acc.head?, u.token.isText
  · -- A text behind a text stands right behind it.
    rcases htexts with ⟨htext, u, hu, htext'⟩
    rcases List.head?_eq_some_iff.mp hu with ⟨front, rfl⟩
    rcases exists_text htext' with ⟨a, span, rfl⟩
    rcases Scanner.text_of_next hnext htext with ⟨chars, _, hrest, _, rfl, _, hoffset'⟩
    rcases h.text a span front rfl with ⟨pre', hpre', hstart, hstop⟩
    have hbytes : byteLength (a ++ String.ofList chars).toList =
        byteLength a.toList + byteLength chars := by
      rw [String.toList_append, String.toList_ofList, byteLength_append]
    have hsource : source.toList = pre' ++ ((a ++ String.ofList chars).toList ++ s'.rest) := by
      rw [hpre', hrest, String.toList_append, String.toList_ofList, List.append_assoc]
    refine ⟨⟨.text (a ++ .ofList chars), span.start, s.offset + byteLength chars⟩ :: front,
      ⟨?_, ?_, ?_⟩, fun items => ?_, fun us => ?_⟩
    · refine ⟨pre' ++ (a ++ String.ofList chars).toList, ?_, ?_⟩
      · rw [hsource, List.append_assoc]
      · rw [byteLength_append, hbytes, hoffset', hstart, hstop, Nat.add_assoc]
    · intro b span' front' heq
      cases heq
      refine ⟨pre', hsource, hstart, ?_⟩
      rw [hoffset', hbytes, hstop, Nat.add_assoc]
    · have hapart := h.apart
      rw [List.isChain_cons] at hapart ⊢
      exact hapart
    · have hread : (Span.mk span.start (s.offset + byteLength chars)).read? source
          = some (a ++ String.ofList chars) := by
        rw [← hstart]
        refine Span.read?_eq_some hsource ?_
        rw [hbytes, hstop, hstart, Nat.add_assoc]
      simp only [gather, hread, Option.bind_some]
    · simp only [List.reverse_cons, List.append_assoc, List.singleton_append]
      rw [mergeText_append, mergeText_append]
      exact congrArg (List.foldr consMerged · front.reverse) (consMerged_text_text ..)
  · have hpush : ∀ u ∈ acc.head?, ¬ (t.token.isText ∧ u.token.isText) :=
      fun u hu h => htexts ⟨h.1, u, hu, h.2⟩
    refine ⟨t :: acc, ⟨?_, ?_, ?_⟩, gather_push hpush, fun us => ?_⟩
    · rcases Scanner.next_ok hnext with ⟨gap, l, _, hrest, _, haccept⟩
      cases haccept
      refine ⟨pre ++ gap ++ l.chars, ?_, ?_⟩
      · rw [hpre, hrest, List.append_assoc, List.append_assoc]
      · rw [byteLength_append, byteLength_append, hoffset]
    · intro a span front heq
      cases heq
      rcases Scanner.text_of_next hnext rfl with ⟨chars, _, hrest, _, htoken, _, hoffset'⟩
      cases htoken
      rw [String.toList_ofList]
      exact ⟨pre, by rw [hpre, hrest], hoffset, hoffset'⟩
    · exact List.isChain_cons.mpr ⟨hpush, h.apart⟩
    · rw [List.reverse_cons, List.append_assoc]
      rfl

/-- Putting texts together in place comes to the tokens with the texts put together. -/
theorem gather_of_passes (h : Scanner.Passes s us s') (hreaches : Reaches source acc s) :
    ∃ acc', (∀ items, gather source acc (us.map .ok ++ items) = gather source acc' items) ∧
      mergeText (acc.reverse ++ us) = acc'.reverse := by
  induction h generalizing acc with
  | here =>
      refine ⟨acc, fun items => rfl, ?_⟩
      rw [List.append_nil]
      refine mergeText_of_apart (List.isChain_reverse.mpr ?_)
      exact hreaches.apart.imp fun t u h htexts => h ⟨htexts.2, htexts.1⟩
  | @step s s₁ s' t us hnext _ ih =>
      rcases gather_step hreaches hnext with ⟨acc₁, hreaches', hgather, hmerge⟩
      rcases ih hreaches' with ⟨acc', hgather', hmerge'⟩
      refine ⟨acc', fun items => ?_, (hmerge us).trans hmerge'⟩
      rw [List.map_cons, List.cons_append, hgather, hgather']

end Gathering

/-- Calling a scanner on a source yields finitely many items and then nothing. They are
    tokens, except that the last one may be an error, and each text among them is a piece of
    text of the source. Scanning the source in place never reads outside of it. It fails
    with the error of the scanner if there is one, and otherwise comes to its tokens with
    each longest group of texts made into one text. -/
theorem scanSpanned_merges (source : String) :
    (∀ n, (Scanner.ofString source).call n = (Scanner.ofString source).items[n]?) ∧
    gather source [] (Scanner.ofString source).items = some (scanSpanned source) ∧
    ∃ us : List Spanned,
      (∀ front t back, us = front ++ t :: back → t.token.isText → PieceAt source front t) ∧
      (((Scanner.ofString source).items = us.map .ok ∧
          ∃ ts, scanSpanned source = .ok ts ∧ Merged us ts) ∨
        ∃ e, (Scanner.ofString source).items = us.map .ok ++ [.error e] ∧
          scanSpanned source = .error e) := by
  refine ⟨Scanner.call_eq _, ?_⟩
  have hreaches : Reaches source [] (.ofString source) := ⟨⟨[], rfl, rfl⟩, nofun, .nil⟩
  rcases (Scanner.ofString source).items_cases with ⟨us, hitems | ⟨e, hitems⟩⟩
  · rcases Scanner.passes_of_items_ok hitems with ⟨s, hpasses, _⟩
    rcases gather_of_passes hpasses hreaches with ⟨acc, hgather, hmerge⟩
    have hscan := scanSpanned_of_items_ok hitems
    refine ⟨?_, us, ?_, .inl ⟨hitems, _, hscan, merged_mergeText us⟩⟩
    · have hend := hgather []
      rw [List.append_nil] at hend
      rw [hitems, hend, hscan, gather, ← hmerge]
      rfl
    · rintro front t back rfl htext
      exact pieceAt_of_passes hpasses htext
  · rcases Scanner.passes_of_items_error hitems with ⟨s, _, hpasses, _⟩
    rcases gather_of_passes hpasses hreaches with ⟨acc, hgather, _⟩
    have hscan := scanSpanned_of_items_error hitems
    refine ⟨?_, us, ?_, .inr ⟨e, hitems, hscan⟩⟩
    · rw [hitems, hgather, hscan, gather]
    · rintro front t back rfl htext
      exact pieceAt_of_passes hpasses htext

end Stencil
