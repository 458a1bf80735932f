import Stencil.Proofs.Grammar.Viability

/-!
# Where Syntax Errors Point

A syntax error points at the first token that no template has at its place.

The reader fails at a token that no step takes in or at the end of the tokens. All tokens
in front of the one that is refused have been read, so they are viable, and since that
one cannot be read behind them, they are not viable with it. Where the tokens end too
early, all of them are viable. An array that is still open is reported at its bracket, a
block at its opening tag, and what else is missing at the end of the tokens.

One error comes a token late. Behind `[%` inside a block the word `end` is read as the end
of the block, and only what comes next shows that it is none. It is then `end` that is
reported, though some template goes on from there.

The limit on the nesting makes no difference to this: an error that is not about the
limit is the error of a reader without one.

## Main definitions

* `EndInBlock`: The word `end` stands behind `[%` inside a block.
* `Offends`: A token is the first that no template has at its place.
* `SyntaxError.PointsInto`: What an error says about the tokens.
* `Reader.Refuses`: The error for a token that is not taken in.
* `Reader.Stops`: The error for tokens that end too early.

## Theorems

* `Step.limited`: Where a limit refuses a step, the error is about the limit.
* `refuses_of_feed`, `stops_of_finish`: The errors of the reader.
* `run_eq_error`: A run fails at a token or at the end.
* `pointsInto_of_refuses`, `pointsInto_of_stops`: These errors point where they should.
* `parse_error_pointsInto`: Every error that is not about the limit does.
-/

namespace Stencil

open Grammar

/-- The word `end` stands at the position, directly behind a `[%` inside a block. -/
def EndInBlock (tokens : List Token) (p : Nat) : Prop :=
  tokens[p]? = some (.keyword .endWord) ∧
    ∃ front kind q, tokens.take p = front ++ [.tagOpen] ∧ InnermostBlock front kind q

/-- The tokens in front of the position are viable. If no token is found there, the tokens
    end with them. One that is found makes them viable no more, unless it is the word `end`
    inside a block, which no `%]` follows. -/
def Offends (tokens : List Token) (p : Nat) (found : Option Token) : Prop :=
  tokens[p]? = found ∧ Viable (tokens.take p) ∧
    match found with
    | none => Viable tokens
    | some _ =>
      (Viable (tokens.take (p + 1)) ↔ EndInBlock tokens p) ∧
        (EndInBlock tokens p → tokens[p + 1]? ≠ some .tagClose)

/-- What an error says about the tokens, if it is not about the nesting. -/
def SyntaxError.PointsInto (tokens : List Token) : SyntaxError → Prop
  | .unexpected p _ found => Offends tokens p found
  | .missingExpression p found => Offends tokens p found
  | .integerTooBig p literal =>
    tokens[p]? = some (.integer literal) ∧ Viable (tokens.take p) ∧
      ¬ Viable (tokens.take (p + 1))
  | .unterminatedArray p => Viable tokens ∧ ∀ q, InnermostArray tokens q ↔ q = p
  | .unterminatedBlock kind p =>
    Viable tokens ∧ ∀ kind' q, InnermostBlock tokens kind' q ↔ kind' = kind ∧ q = p
  | .tooDeep _ => True

namespace Reader

variable {limit : Option Nat} {r s : Reader} {t : Token} {e : SyntaxError}
  {us vs ts : List Token}

/-- What is taken in without a limit is taken in under one, or the error is that it is too
    deep. -/
theorem Step.limited (h : Step none r t s) :
    Step limit r t s ∨ ∃ p, r.feed limit t = .error (.tooDeep p) := by
  cases h with
  | @bracketOpen k ss bs place tag hplace _ =>
      cases hfull : isFull limit (bs.length + tag.arrays.length) with
      | false => exact .inl (.bracketOpen hplace (isFull_eq_false_iff.mp hfull))
      | true =>
          refine .inr ⟨k, ?_⟩
          rw [feed_of_awaits hplace (.inr (.inr (.inr rfl)))]
          simp only [feedOperand, hfull, if_true]
  | @openBlock k ss bs start purpose chain value head hhead _ =>
      cases hfull : isFull limit bs.length with
      | false => exact .inl (.openBlock hhead (isFull_eq_false_iff.mp hfull))
      | true =>
          refine .inr ⟨start, ?_⟩
          cases hhead with
          | condition => simp only [feed, feedOperator, closeTag, Reader.openBlock, hfull, if_true]
          | iterable => simp only [feed, feedOperator, closeTag, Reader.openBlock, hfull, if_true]
  | text => exact .inl .text
  | tagOpen => exact .inl .tagOpen
  | ifWord => exact .inl .ifWord
  | forWord => exact .inl .forWord
  | endWord hblocks => exact .inl (.endWord hblocks)
  | loopVariable => exact .inl .loopVariable
  | loopIn => exact .inl .loopIn
  | integer hplace hn => exact .inl (.integer hplace hn)
  | nil hplace => exact .inl (.nil hplace)
  | lookup hplace => exact .inl (.lookup hplace)
  | arrayEnd => exact .inl .arrayEnd
  | comma => exact .inl .comma
  | bracketClose => exact .inl .bracketClose
  | operator => exact .inl .operator
  | print => exact .inl .print
  | closeBlock => exact .inl .closeBlock
  | strayEnd => exact .inl .strayEnd

/-- A token that is refused, and not because of the limit, is refused without one. -/
theorem not_step_of_feed (h : r.feed limit t = .error e) (hdeep : ∀ p, e ≠ .tooDeep p) :
    ∀ s, ¬ Step none r t s := by
  intro s hstep
  rcases hstep.limited with hlimited | ⟨p, hp⟩
  · rw [feed_of_step hlimited] at h
    exact nomatch h
  · rw [hp] at h
    exact hdeep p (Except.error.inj h).symm

/-- The error for a token that is not taken in, and not because of the limit. It points at
    the token, or at the word `end` in front of it. -/
inductive Refuses (r : Reader) (t : Token) : SyntaxError → Prop
  | unexpected {expected : Expected} : Refuses r t (.unexpected r.position expected (some t))
  | missingExpression : Refuses r t (.missingExpression r.position (some t))
  | integerTooBig {digits : String} : t = .integer digits →
    Refuses r t (.integerTooBig r.position digits)
  | endWord {word : Nat} : r.place = .endWord word → t ≠ .tagClose →
    Refuses r t (.unexpected word .value (some (.keyword .endWord)))

theorem refuses_of_feedOperand {tag : OpenTag} (hdeep : ∀ p, e ≠ .tooDeep p)
    (h : feedOperand limit r tag t = .error e) : r.Refuses t e := by
  unfold feedOperand at h
  split at h
  · split at h
    · exact nomatch h
    · cases h
      exact .integerTooBig rfl
  · exact nomatch h
  · exact nomatch h
  · split at h
    · cases h
      exact absurd rfl (hdeep _)
    · exact nomatch h
  · split at h
    · exact nomatch h
    · cases h
      exact .unexpected
  · cases h
    exact .unexpected

theorem tooDeep_of_closeTag {tag : OpenTag} {expression : Node}
    (h : closeTag limit r tag expression = .error e) : ∃ p, e = .tooDeep p := by
  have hopen : ∀ head, openBlock limit r tag.start head = .error e → ∃ p, e = .tooDeep p := by
    intro head hopen
    unfold openBlock at hopen
    split at hopen
    · exact ⟨_, (Except.error.inj hopen).symm⟩
    · exact nomatch hopen
  unfold closeTag at h
  split at h
  · exact nomatch h
  · exact hopen _ h
  · exact hopen _ h

theorem refuses_of_feedOperator {tag : OpenTag} {value : Node} (hdeep : ∀ p, e ≠ .tooDeep p)
    (h : feedOperator limit r tag value t = .error e) : r.Refuses t e := by
  unfold feedOperator at h
  split at h
  · split at h
    · exact nomatch h
    · exact nomatch h
    · cases h
      exact .unexpected
  · split at h
    · exact nomatch h
    · rcases tooDeep_of_closeTag h with ⟨p, hp⟩
      exact absurd hp (hdeep p)
    · cases h
      exact .unexpected

theorem refuses_of_feedTagStart {start : Nat} (hdeep : ∀ p, e ≠ .tooDeep p)
    (h : feedTagStart limit r start t = .error e) : r.Refuses t e := by
  unfold feedTagStart at h
  split at h
  · cases h
    exact .missingExpression
  · exact nomatch h
  · exact nomatch h
  · split at h
    · cases h
      exact .unexpected
    · exact nomatch h
  · exact refuses_of_feedOperand hdeep h

/-- Why a token is refused, if not because of the limit. -/
theorem refuses_of_feed (hdeep : ∀ p, e ≠ .tooDeep p) (h : r.feed limit t = .error e) :
    r.Refuses t e := by
  unfold feed at h
  split at h
  · split at h
    · exact nomatch h
    · exact nomatch h
    · cases h
      exact .unexpected
  · exact refuses_of_feedTagStart hdeep h
  · rename_i word hplace
    split at h
    · exact nomatch h
    · rename_i ht
      cases h
      exact .endWord hplace ht
  · split at h
    · exact nomatch h
    · cases h
      exact .unexpected
  · split at h
    · exact nomatch h
    · cases h
      exact .unexpected
  · exact refuses_of_feedOperand hdeep h
  · exact refuses_of_feedOperator hdeep h

/-- The error for tokens that end too early. -/
inductive Stops (r : Reader) : SyntaxError → Prop
  | unexpected {expected : Expected} : Stops r (.unexpected r.position expected none)
  | missingExpression : Stops r (.missingExpression r.position none)
  | endWord {word : Nat} : r.place = .endWord word →
    Stops r (.unexpected word .value (some (.keyword .endWord)))
  | unterminatedArray {a : OpenArray} {outer : List OpenArray} : r.place.arrays = a :: outer →
    Stops r (.unterminatedArray a.start)
  | unterminatedBlock {b : OpenBlock} {outer : List OpenBlock} : r.place = .statement →
    r.blocks = b :: outer → Stops r (.unterminatedBlock b.head.kind b.start)

theorem stops_of_endInTag {tag : OpenTag} (expected : Expected)
    (harrays : r.place.arrays = tag.arrays) : r.Stops (r.endInTag tag expected) := by
  unfold endInTag
  split
  · rename_i a outer ha
    exact .unterminatedArray (harrays.trans ha)
  · exact .unexpected

/-- Why the tokens may not end. -/
theorem stops_of_finish (h : r.finish = .error e) : r.Stops e := by
  unfold finish at h
  split at h
  · rename_i hplace
    split at h
    · exact nomatch h
    · rename_i b outer hblocks
      cases h
      exact .unterminatedBlock hplace hblocks
  · cases h
    exact .missingExpression
  · cases h
    exact .endWord ‹_›
  · cases h
    exact .unexpected
  · cases h
    exact .unexpected
  · rename_i tag hplace
    cases h
    exact stops_of_endInTag .value (by rw [hplace]; rfl)
  · rename_i tag value hplace
    cases h
    exact stops_of_endInTag .tagClose (by rw [hplace]; rfl)

/-- A run fails at a token that is refused or at the end of the tokens. -/
theorem run_eq_error (h : r.run limit ts = .error e) :
    (∃ s, Reads limit r ts s ∧ s.finish = .error e) ∨
      ∃ us t vs s, ts = us ++ t :: vs ∧ Reads limit r us s ∧ s.feed limit t = .error e := by
  induction ts generalizing r with
  | nil => exact .inl ⟨r, .nil, h⟩
  | cons t ts ih =>
      rw [run] at h
      split at h
      · rename_i s hfeed
        have hstep := step_of_feed hfeed
        rcases ih h with ⟨u, hreads, hfinish⟩ | ⟨us, t', vs, u, rfl, hreads, herror⟩
        · exact .inl ⟨u, .cons hstep hreads, hfinish⟩
        · exact .inr ⟨t :: us, t', vs, u, rfl, .cons hstep hreads, herror⟩
      · rename_i e' hfeed
        cases h
        exact .inr ⟨[], t, ts, r, rfl, .nil, hfeed⟩

end Reader

open Reader

namespace Grammar

theorem Viable.of_append {us vs : List Token} (h : Viable (us ++ vs)) : Viable us := by
  rcases h with ⟨ws, root, hroot⟩
  exact ⟨vs ++ ws, root, by rwa [List.append_assoc] at hroot⟩

end Grammar

section

variable {limit : Option Nat} {r : Reader} {t : Token} {e : SyntaxError}
  {us vs ts : List Token} {p word : Nat}

theorem getElem?_seam (us vs : List Token) (t : Token) :
    (us ++ t :: vs)[us.length]? = some t := by
  rw [List.getElem?_append_right (Nat.le_refl _), Nat.sub_self, List.getElem?_cons_zero]

/-- With a token that cannot be read behind them, tokens are not viable. -/
theorem not_viable_concat (h : Reads none start us r) (ht : ∀ s, ¬ Step none r t s) :
    ¬ Viable (us ++ [t]) := by
  intro hviable
  rcases viable_iff.mp hviable with ⟨s, hreads⟩
  rcases hreads.split with ⟨r', hfront, hlast⟩
  rw [hfront.unique h] at hlast
  cases hlast with
  | cons hstep _ => exact ht _ hstep

/-- The word `end` inside a block can be read. -/
theorem not_endInBlock (h : Reads none start us r) (ht : ∀ s, ¬ Step none r t s) :
    ¬ EndInBlock (us ++ t :: vs) us.length := by
  rintro ⟨hend, front, kind, q, hfront, hblock⟩
  rw [getElem?_seam, Option.some.injEq] at hend
  rw [List.take_left] at hfront
  subst hend hfront
  -- The block is open in front of the tag, and the opening of a tag leaves it open.
  rcases h.split with ⟨⟨k, place, ss, bs⟩, hfront, htag⟩
  rcases start_of_innermostBlock hfront hblock with ⟨_, b, outer, hblocks, _⟩
  have hopen : bs ≠ [] := by
    rw [show bs = b :: outer from hblocks]
    exact List.cons_ne_nil _ _
  cases htag with
  | cons hstep hnil =>
      cases hnil
      cases hstep
      exact ht _ (.endWord hopen)

/-- A token that cannot be read offends. -/
theorem offends_of_not_step (h : Reads none start us r) (ht : ∀ s, ¬ Step none r t s) :
    Offends (us ++ t :: vs) us.length (some t) := by
  have hend : ¬ EndInBlock (us ++ t :: vs) us.length := not_endInBlock h ht
  refine ⟨?_, ?_, ⟨fun hviable => ?_, fun hblock => absurd hblock hend⟩,
    fun hblock => absurd hblock hend⟩
  · exact getElem?_seam us vs t
  · rw [List.take_left]
    exact viable_iff.mpr ⟨r, h⟩
  · have hlength : us.length + 1 = (us ++ [t]).length := by
      rw [List.length_append, List.length_singleton]
    rw [List.append_cons us t vs, hlength, List.take_left] at hviable
    exact absurd hviable (not_viable_concat h ht)

/-- The word `end` inside a block offends where no `%]` follows. -/
theorem offends_of_endWord (h : Reads none start us r) (hplace : r.place = .endWord word)
    (hvs : vs.head? ≠ some .tagClose) :
    Offends (us ++ vs) word (some (.keyword .endWord)) := by
  have hviable : Viable us := viable_iff.mpr ⟨r, h⟩
  have hword := reads_word h hplace
  rcases reads_spells h start_spells with ⟨hopen, bs, ss, ps, hbs, hss, hps, hus⟩
  rw [hplace] at hps
  rw [List.nil_append, show ps = [.tagOpen, .keyword .endWord] from hps] at hus
  -- A block is open in front of the tag that the word stands in.
  have hblock : ∃ kind q, InnermostBlock (bs ++ ss) kind q := by
    cases hblocks : r.blocks with
    | nil => exact absurd hblocks (hopen word hplace)
    | cons b outer =>
        rw [hblocks] at hbs
        rcases exists_innermostBlock hbs hss with ⟨q, hq⟩
        exact ⟨_, q, hq⟩
  rcases hblock with ⟨kind, q, hblock⟩
  have hus : us = (bs ++ ss ++ [.tagOpen]) ++ [.keyword .endWord] := by
    simp only [hus, List.append_assoc, List.cons_append, List.nil_append]
  have hfront : (bs ++ ss ++ [Token.tagOpen]).length = word := by
    rw [hus, List.length_append, List.length_singleton] at hword
    exact (Nat.add_right_cancel hword).symm
  have htokens : us ++ vs = (bs ++ ss ++ [.tagOpen]) ++ .keyword .endWord :: vs := by
    rw [hus, List.append_assoc _ [_], List.singleton_append]
  have hfound : (us ++ vs)[word]? = some (.keyword .endWord) := by
    rw [htokens, ← hfront]
    exact getElem?_seam _ vs _
  have htake : (us ++ vs).take word = bs ++ ss ++ [.tagOpen] := by
    rw [htokens, ← hfront, List.take_left]
  have hnext : (us ++ vs)[word + 1]? = vs.head? := by
    rw [hword, List.getElem?_append_right (Nat.le_refl _), Nat.sub_self, List.head?_eq_getElem?]
  have hend : EndInBlock (us ++ vs) word := ⟨hfound, bs ++ ss, kind, q, htake, hblock⟩
  refine ⟨hfound, ?_, ⟨fun _ => hend, fun _ => ?_⟩, fun _ => hnext ▸ hvs⟩
  · -- What stands in front of the word is in front of a template's tokens too.
    rw [hus] at hviable
    rw [htake]
    exact hviable.of_append
  · rwa [hword, List.take_left]

/-- The error for a token that is refused points where it should. -/
theorem pointsInto_of_refuses (h : Reads none start us r) (ht : ∀ s, ¬ Step none r t s)
    (he : r.Refuses t e) : e.position ≤ (us ++ t :: vs).length ∧ e.PointsInto (us ++ t :: vs) := by
  have hposition := reads_position h
  have hle : us.length ≤ (us ++ t :: vs).length := by
    rw [List.length_append]
    exact Nat.le_add_right _ _
  have hoffends : Offends (us ++ t :: vs) r.position (some t) := by
    rw [hposition]
    exact offends_of_not_step h ht
  cases he with
  | unexpected => exact ⟨hposition ▸ hle, hoffends⟩
  | missingExpression => exact ⟨hposition ▸ hle, hoffends⟩
  | integerTooBig hdigits =>
      subst hdigits
      refine ⟨hposition ▸ hle, hoffends.1, hoffends.2.1, fun hviable => ?_⟩
      -- The digits are not the word that may stand there in spite of the error.
      have hend := (hoffends.2.2.1.mp hviable).1
      rw [hoffends.1, Option.some.injEq] at hend
      exact nomatch hend
  | endWord hplace hclose =>
      have hword := reads_word h hplace
      refine ⟨?_, offends_of_endWord h hplace ?_⟩
      · exact Nat.le_trans (Nat.le_of_succ_le (Nat.le_of_eq hword)) hle
      · intro hhead
        exact hclose (Option.some.inj hhead)

/-- The error for tokens that end too early points where it should. -/
theorem pointsInto_of_stops (h : Reads none start ts r) (he : r.Stops e) :
    e.position ≤ ts.length ∧ e.PointsInto ts := by
  have hposition := reads_position h
  have hviable : Viable ts := viable_iff.mpr ⟨r, h⟩
  have hoffends : Offends ts r.position none := by
    rw [hposition]
    refine ⟨List.getElem?_eq_none (Nat.le_refl _), ?_, hviable⟩
    rwa [List.take_length]
  cases he with
  | unexpected => exact ⟨Nat.le_of_eq hposition, hoffends⟩
  | missingExpression => exact ⟨Nat.le_of_eq hposition, hoffends⟩
  | endWord hplace =>
      have hword := reads_word h hplace
      have hend : Offends (ts ++ []) _ _ := offends_of_endWord h hplace nofun
      rw [List.append_nil] at hend
      exact ⟨Nat.le_of_succ_le (Nat.le_of_eq hword), hend⟩
  | unterminatedArray harrays =>
      have hiff : ∀ q, InnermostArray ts q ↔ q = _ := fun q => innermostArray_iff h harrays
      -- The bracket is one of the tokens, so it is within them.
      rcases (hiff _).mpr rfl with ⟨front, inner, hts, hfront, _⟩
      refine ⟨?_, hviable, hiff⟩
      rw [hts, List.length_append]
      exact Nat.le_trans (Nat.le_of_eq hfront.symm) (Nat.le_add_right _ _)
  | unterminatedBlock hplace hblocks =>
      have hiff : ∀ kind q, InnermostBlock ts kind q ↔ kind = _ ∧ q = _ :=
        fun kind q => innermostBlock_iff h hplace hblocks
      rcases (hiff _ _).mpr ⟨rfl, rfl⟩ with ⟨front, opening, body, _, hts, hfront, _⟩
      refine ⟨?_, hviable, hiff⟩
      rw [hts, List.append_assoc, List.length_append]
      exact Nat.le_trans (Nat.le_of_eq hfront.symm) (Nat.le_add_right _ _)

/-- Under every limit, an error that is not about the limit points where it should. -/
theorem pointsInto_of_readTree (h : readTree limit ts = .error e) (hdeep : ∀ p, e ≠ .tooDeep p) :
    e.position ≤ ts.length ∧ e.PointsInto ts := by
  rcases run_eq_error h with ⟨s, hreads, hfinish⟩ | ⟨us, t, vs, s, rfl, hreads, hfeed⟩
  · exact pointsInto_of_stops hreads.unlimited (stops_of_finish hfinish)
  · exact pointsInto_of_refuses hreads.unlimited (not_step_of_feed hfeed hdeep)
      (refuses_of_feed hdeep hfeed)

end

/-- An error of parsing that is not about the nesting lies within the tokens or behind the
    last one, and it points at the first token that no template has at its place. What is
    still open at the end of the tokens is reported where it opens. -/
theorem parse_error_pointsInto {ts : List Token} {e : SyntaxError} (h : parse ts = .error e)
    (hdeep : ∀ p, e ≠ .tooDeep p) : e.position ≤ ts.length ∧ e.PointsInto ts :=
  pointsInto_of_readTree h hdeep

/-- The word `end` inside a block is reported though it can be read. -/
theorem parse_error_pointsInto_endWord :
    Offends [.tagOpen, .keyword .ifWord, .keyword .nilWord, .tagClose, .tagOpen, .keyword .endWord]
      5 (some (.keyword .endWord)) := by
  have herror : parse [.tagOpen, .keyword .ifWord, .keyword .nilWord, .tagClose, .tagOpen,
      .keyword .endWord] = .error (.unexpected 5 .value (some (.keyword .endWord))) := rfl
  exact (parse_error_pointsInto herror nofun).2

end Stencil
