import Stencil.Proofs.Grammar.Errors

/-!
# What the Limit on the Nesting Changes

The limit refuses what is too deep, and makes no other difference.

A reader without a limit takes in every template. With one it asks, wherever a token opens
a block or an array, how many of them are open already, and if there are too many it stops
with the place where the new one starts. At every other token it does what it does without
the limit. So the two readers go through the same states up to the first token behind which
more blocks and arrays are open than the limit admits. If there is no such token, they end
in the same way.

What is counted is what is open at the same time, since a block or an array that is closed
leaves the state. The count is not that of the nesting of a tree, which has not been read by
then, but a tree is read exactly where its nesting is within the limit.

## Main definitions

* `Grammar.EnteredBy`: Where the block or the array starts that a token opens.
* `Reader.openCount`: The number of blocks and arrays that are open.
* `Reader.Enters`: A token opens one more of them.
* `Overfills`: Without a limit, a token opens one block or array too many.

## Theorems

* `feed_limited`: What a limit changes at one token.
* `step_openCount`: A token opens one block or array at most.
* `reads_openCount_le`, `reads_limited`: What a limit changes over some tokens.
* `enters_of_tooDeep`, `feed_error_unlimited`: Which errors come from the limit.
* `enteredBy_of_enters`: The reader keeps where a block or an array starts.
* `parse_limited`: What the limit changes for whole templates.
-/

namespace Stencil

open Grammar

namespace Grammar

/-- Behind some tokens, the token opens a block or an array whose first token is at the
    position: an array with its bracket, a block with the end of its opening tag. -/
inductive EnteredBy (us : List Token) : Token → Nat → Prop
  | array : EnteredBy us .bracketOpen us.length
  | block {kind : BlockKind} {front opening : List Token} : Opening kind opening →
    us ++ [.tagClose] = front ++ opening → EnteredBy us .tagClose front.length

end Grammar

namespace Reader

/-- The number of blocks and arrays that are open. -/
def openCount (r : Reader) : Nat :=
  r.blocks.length + r.place.arrays.length

/-- The token opens a block or an array that starts at the position. -/
inductive Enters : Reader → Token → Nat → Prop
  | array {k place tag ss bs} : Place.Awaits place tag → Enters ⟨k, place, ss, bs⟩ .bracketOpen k
  | block {k start purpose chain value head ss bs} :
    Purpose.Opens purpose (chain.close value) head →
    Enters ⟨k, .operator ⟨start, purpose, chain, []⟩ value, ss, bs⟩ .tagClose start

variable {limit : Option Nat} {r s : Reader} {t : Token} {us ts : List Token} {q m : Nat}

theorem openCount_of_awaits {k : Nat} {place : Place} {tag : OpenTag} {ss : List Node}
    {bs : List OpenBlock} (h : place.Awaits tag) :
    openCount ⟨k, place, ss, bs⟩ = bs.length + tag.arrays.length := by
  cases h <;> rfl

/-- Where a token opens a block or an array, the limit decides. -/
theorem feed_of_enters (h : r.Enters t q) :
    r.feed limit t = if isFull limit r.openCount then .error (.tooDeep q) else r.feed none t := by
  cases h with
  | array hplace =>
      rw [feed_of_awaits hplace (.inr (.inr (.inr rfl))),
        feed_of_awaits hplace (.inr (.inr (.inr rfl))), openCount_of_awaits hplace]
      rfl
  | block hhead => cases hhead <;> rfl

/-- Any other token is taken in or refused as without the limit. -/
theorem feed_of_not_enters (h : ∀ q, ¬ r.Enters t q) : r.feed limit t = r.feed none t := by
  rcases r with ⟨k, place, ss, bs⟩
  cases place with
  | statement | endWord | loopVariable | loopIn => rfl
  | tagStart start =>
      cases t with
      | bracketOpen => exact absurd (.array .tagStart) (h k)
      | keyword word => cases word <;> rfl
      | _ => rfl
  | operand tag =>
      cases t with
      | bracketOpen => exact absurd (.array .operand) (h k)
      | keyword word => cases word <;> rfl
      | _ => rfl
  | operator tag value =>
      rcases tag with ⟨start, purpose, chain, arrays⟩
      cases arrays with
      | cons a outer => rfl
      | nil =>
          cases t with
          | tagClose =>
              cases purpose with
              | print => rfl
              | condition => exact absurd (.block .condition) (h start)
              | iterable name => exact absurd (.block .iterable) (h start)
          | _ => rfl

/-- A limit makes no difference, or a token opens a block or an array where the limit is
    reached, and that is the error. -/
theorem feed_limited (limit : Option Nat) (r : Reader) (t : Token) :
    r.feed limit t = r.feed none t ∨
      ∃ q, r.Enters t q ∧ isFull limit r.openCount = true ∧
        r.feed limit t = .error (.tooDeep q) := by
  by_cases henters : ∃ q, r.Enters t q
  · rcases henters with ⟨q, hq⟩
    have hfeed := @feed_of_enters limit _ _ _ hq
    by_cases hfull : isFull limit r.openCount = true
    · exact .inr ⟨q, hq, hfull, by rw [hfeed, if_pos hfull]⟩
    · exact .inl (by rw [hfeed, if_neg hfull])
  · exact .inl (feed_of_not_enters fun q hq => henters ⟨q, hq⟩)

/-- A token that opens a block or an array makes one more open. -/
theorem step_of_enters (h : r.Enters t q) :
    ∃ s, Step none r t s ∧ s.openCount = r.openCount + 1 := by
  cases h with
  | array hplace =>
      refine ⟨_, .bracketOpen hplace (fits_none _), ?_⟩
      rw [openCount_of_awaits hplace]
      rfl
  | block hhead => exact ⟨_, .openBlock hhead (fits_none _), rfl⟩

/-- A step opens one block or array, or no more are open than before. -/
theorem step_openCount (h : Step limit r t s) :
    s.openCount ≤ r.openCount ∨ (∃ q, r.Enters t q) ∧ s.openCount = r.openCount + 1 := by
  cases h with
  | bracketOpen hplace _ =>
      refine .inr ⟨⟨_, .array hplace⟩, ?_⟩
      rw [openCount_of_awaits hplace]
      rfl
  | openBlock hhead _ => exact .inr ⟨⟨_, .block hhead⟩, rfl⟩
  | integer hplace _ | nil hplace | lookup hplace =>
      left
      rw [openCount_of_awaits hplace]
      exact Nat.le_refl _
  | _ =>
      left
      simp only [openCount, Place.arrays, List.length_cons, List.length_nil]
      omega

/-- A limit admits a step that opens nothing, and one that opens a block or an array where
    fewer than the limit are open. -/
theorem Step.limited_of_lt (h : Step none r t s) (hcount : ∀ q, r.Enters t q → r.openCount < m) :
    Step (some m) r t s := by
  refine step_of_feed ?_
  rcases feed_limited (some m) r t with hfeed | ⟨q, hq, hfull, _⟩
  · rw [hfeed, feed_of_step h]
  · exact absurd (of_decide_eq_true hfull) (Nat.not_le_of_lt (hcount q hq))

/-- Under a limit, a step does not open more than the limit admits. -/
theorem step_openCount_le (h : Step (some m) r t s) (hr : r.openCount ≤ m) : s.openCount ≤ m := by
  rcases step_openCount h with hle | ⟨⟨q, hq⟩, hcount⟩
  · exact Nat.le_trans hle hr
  · -- The limit was not reached, or the token would have been refused.
    have hfeed := feed_of_step h
    rw [feed_of_enters hq] at hfeed
    split at hfeed
    · exact nomatch hfeed
    · rename_i hfull
      rw [hcount]
      exact Nat.lt_of_not_le fun hle => hfull (decide_eq_true hle)

theorem reads_openCount_le (h : Reads (some m) r ts s) (hr : r.openCount ≤ m) :
    s.openCount ≤ m := by
  induction h with
  | nil => exact hr
  | cons hstep _ ih => exact ih (step_openCount_le hstep hr)

/-- Tokens over which no more blocks and arrays are open than a limit admits are read under
    the limit. -/
theorem reads_limited (h : Reads none r ts s)
    (hcount : ∀ front u, front <+: ts → Reads none r front u → u.openCount ≤ m) :
    Reads (some m) r ts s := by
  induction h with
  | nil => exact .nil
  | @cons r u s t ts hstep hrest ih =>
      have hlimited : Step (some m) r t u := by
        refine hstep.limited_of_lt fun q hq => ?_
        -- Behind the token one more is open, and that is within the limit.
        rcases step_of_enters hq with ⟨u', hstep', hu'⟩
        have hle := hcount [t] u' (List.prefix_append [t] ts) (.one hstep')
        omega
      refine .cons hlimited (ih fun front v hfront hreads => ?_)
      exact hcount (t :: front) v (List.cons_prefix_cons.mpr ⟨rfl, hfront⟩) (.cons hstep hreads)

theorem run_of_reads {back : List Token} (h : Reads limit r ts s) :
    r.run limit (ts ++ back) = s.run limit back := by
  induction h with
  | nil => rfl
  | cons hstep _ ih => rw [List.cons_append, run, feed_of_step hstep, ← ih]

theorem feedOperand_ne_tooDeep {tag : OpenTag} :
    r.feedOperand none tag t ≠ .error (.tooDeep q) := by
  intro h
  unfold feedOperand at h
  split at h
  · split at h <;> exact nomatch h
  · exact nomatch h
  · exact nomatch h
  · exact nomatch h
  · split at h <;> exact nomatch h
  · exact nomatch h

theorem closeTag_ne_tooDeep {tag : OpenTag} {expression : Node} :
    r.closeTag none tag expression ≠ .error (.tooDeep q) := by
  intro h
  unfold closeTag at h
  split at h <;> exact nomatch h

/-- Without a limit nothing is too deep. -/
theorem feed_ne_tooDeep : r.feed none t ≠ .error (.tooDeep q) := by
  intro h
  unfold feed at h
  split at h
  · split at h <;> exact nomatch h
  · unfold feedTagStart at h
    split at h
    · exact nomatch h
    · exact nomatch h
    · exact nomatch h
    · split at h <;> exact nomatch h
    · exact feedOperand_ne_tooDeep h
  · split at h <;> exact nomatch h
  · split at h <;> exact nomatch h
  · split at h <;> exact nomatch h
  · exact feedOperand_ne_tooDeep h
  · unfold feedOperator at h
    split at h
    · split at h <;> exact nomatch h
    · split at h
      · exact nomatch h
      · exact closeTag_ne_tooDeep h
      · exact nomatch h

/-- What is too deep is a block or an array that opens where the limit is reached. -/
theorem enters_of_tooDeep (h : r.feed limit t = .error (.tooDeep q)) :
    r.Enters t q ∧ isFull limit r.openCount = true := by
  rcases feed_limited limit r t with hfeed | ⟨q', hq', hfull, hfeed⟩
  · rw [hfeed] at h
    exact absurd h feed_ne_tooDeep
  · rw [hfeed] at h
    cases h
    exact ⟨hq', hfull⟩

/-- Any other error does not come from the limit. -/
theorem feed_error_unlimited {e : SyntaxError} (h : r.feed limit t = .error e)
    (hdeep : ∀ q, e ≠ .tooDeep q) : r.feed none t = .error e := by
  rcases feed_limited limit r t with hfeed | ⟨q, _, _, hfeed⟩
  · rw [← hfeed, h]
  · rw [hfeed] at h
    exact absurd (Except.error.inj h).symm (hdeep q)

theorem finish_ne_tooDeep : r.finish ≠ .error (.tooDeep q) :=
  fun h => nomatch stops_of_finish h

end Reader

open Reader

/-- Read without a limit, the tokens open more than `m` blocks and arrays inside each other,
    and the first that is one too many starts at the position. Up to the token that opens it
    all tokens can be read, and no more than `m` are open. -/
def Overfills (m : Nat) (ts : List Token) (q : Nat) : Prop :=
  ∃ us t vs s, ts = us ++ t :: vs ∧ Reads none start (us ++ [t]) s ∧ s.openCount = m + 1 ∧
    EnteredBy us t q ∧ ∀ front r, front <+: us → Reads none start front r → r.openCount ≤ m

section

variable {r s : Reader} {t : Token} {us vs ts : List Token} {q q' m : Nat}

/-- The tag that opens a block opens the innermost one. -/
theorem start_of_opening {kind : BlockKind} {front opening : List Token}
    (h : Reads none start ts s) (hopening : Opening kind opening) (hts : ts = front ++ opening) :
    ∃ b outer, s.blocks = b :: outer ∧ b.start = front.length := by
  have hblock : InnermostBlock ts kind front.length :=
    ⟨front, opening, [], [], by rw [hts, List.append_nil], rfl, hopening, .nil⟩
  rcases start_of_innermostBlock h hblock with ⟨_, b, outer, hblocks, _, hstart⟩
  exact ⟨b, outer, hblocks, hstart⟩

/-- A token opens one block or array at most. -/
theorem enteredBy_unique (h : Reads none start (us ++ [t]) s) (hq : EnteredBy us t q)
    (hq' : EnteredBy us t q') : q = q' := by
  cases hq with
  | array =>
      cases hq'
      rfl
  | block hopening hts =>
      cases hq' with
      | block hopening' hts' =>
          rcases start_of_opening h hopening hts with ⟨b, outer, hblocks, hstart⟩
          rcases start_of_opening h hopening' hts' with ⟨b', outer', hblocks', hstart'⟩
          rw [hblocks, List.cons.injEq] at hblocks'
          rw [← hstart, ← hstart', hblocks'.1]

/-- The reader keeps where a block or an array starts that a token opens. -/
theorem enteredBy_of_enters (h : Reads none start us r) (hq : r.Enters t q) :
    EnteredBy us t q := by
  cases hq with
  | array _ =>
      rw [show q = us.length from reads_position h]
      exact .array
  | @block k _ purpose chain value head ss bs hhead =>
      rcases reads_spells h start_spells with ⟨_, os, body, ps, _, _, hps, hus⟩
      rcases spells_sum hps with ⟨es, hes, rfl⟩
      rw [List.nil_append] at hus
      have hopening := BlockHead.opening (Purpose.spells_head hhead hes)
      have hsplit : us ++ [.tagClose] = os ++ body ++ (purpose.tokens ++ es ++ [.tagClose]) := by
        rw [hus, List.append_assoc]
      -- Behind the tag, the block that it opens is the innermost.
      have hreads := h.append (.one (.openBlock hhead (fits_none _)))
      rcases start_of_opening hreads hopening hsplit with ⟨b, outer, hblocks, hstart⟩
      rw [List.cons.injEq] at hblocks
      rw [show q = (os ++ body).length by rw [← hstart, ← hblocks.1]]
      exact .block hopening hsplit

/-- The tokens up to the first block or array that is one too many are read under the
    limit. -/
theorem readTree_tooDeep (h : Overfills m ts q) : readTree (some m) ts = .error (.tooDeep q) := by
  rcases h with ⟨us, t, vs, s, rfl, hreads, hcount, hentered, hfront⟩
  rcases hreads.split with ⟨r, hus, ht⟩
  have hr : r.openCount ≤ m := hfront us r List.prefix_rfl hus
  cases ht with
  | cons hstep hnil =>
      cases hnil
      rcases step_openCount hstep with hle | ⟨⟨q', hq'⟩, hopen⟩
      · omega
      · have hq : q' = q := enteredBy_unique hreads (enteredBy_of_enters hus hq') hentered
        have hfull : isFull (some m) r.openCount = true := decide_eq_true (by omega)
        rw [readTree, run_of_reads (reads_limited hus hfront), run, feed_of_enters hq',
          if_pos hfull, hq]

/-- What is too deep is the first block or array that is one too many. -/
theorem overfills_of_readTree (h : readTree (some m) ts = .error (.tooDeep q)) :
    Overfills m ts q := by
  rcases run_eq_error h with ⟨s, _, hfinish⟩ | ⟨us, t, vs, r, rfl, hus, hfeed⟩
  · exact absurd hfinish finish_ne_tooDeep
  · have hcount : ∀ front r', front <+: us → Reads none start front r' → r'.openCount ≤ m := by
      rintro front r' ⟨back, rfl⟩ hr'
      rcases hus.split with ⟨r'', hfront, _⟩
      rw [hr'.unique hfront.unlimited]
      exact reads_openCount_le hfront (Nat.zero_le m)
    rcases enters_of_tooDeep hfeed with ⟨hq, hfull⟩
    rcases step_of_enters hq with ⟨s, hstep, hs⟩
    have hm : m ≤ r.openCount := of_decide_eq_true hfull
    have hr : r.openCount ≤ m := hcount us r List.prefix_rfl hus.unlimited
    exact ⟨us, t, vs, s, rfl, hus.unlimited.append (.one hstep), by omega,
      enteredBy_of_enters hus.unlimited hq, hcount⟩

/-- An error that is not about the limit is the error without it. -/
theorem readTree_error_unlimited {limit : Option Nat} {e : SyntaxError}
    (h : readTree limit ts = .error e) (hdeep : ∀ q, e ≠ .tooDeep q) :
    readTree none ts = .error e := by
  rcases run_eq_error h with ⟨s, hreads, hfinish⟩ | ⟨us, t, vs, s, rfl, hreads, hfeed⟩
  · have hrun : start.run none (ts ++ []) = s.run none [] := run_of_reads hreads.unlimited
    rw [List.append_nil] at hrun
    rw [readTree, hrun]
    exact hfinish
  · rw [readTree, run_of_reads hreads.unlimited, run, feed_error_unlimited hfeed hdeep]

end

/-- The limit refuses what is too deep and makes no other difference. A template is parsed
    where it can be read without the limit and its nesting is within it. Where a token opens
    the first block or array that is one too many, this is the error, and everything else
    ends as it does without the limit. -/
theorem parse_limited (ts : List Token) :
    (∀ root, parse ts = .ok root ↔ readTree none ts = .ok root ∧ root.nesting ≤ 256) ∧
      (∀ q, parse ts = .error (.tooDeep q) ↔ Overfills 256 ts q) ∧
      (∀ q, readTree none ts ≠ .error (.tooDeep q)) ∧
      ((∀ q, ¬ Overfills 256 ts q) → parse ts = readTree none ts) := by
  have hunlimited : ∀ q, readTree none ts ≠ .error (.tooDeep q) := by
    intro q h
    rcases run_eq_error h with ⟨s, _, hfinish⟩ | ⟨_, _, _, s, _, _, hfeed⟩
    · exact finish_ne_tooDeep hfinish
    · exact feed_ne_tooDeep hfeed
  refine ⟨fun root => ?_, fun q => ⟨overfills_of_readTree, readTree_tooDeep⟩, hunlimited,
    fun hdeep => ?_⟩
  · rw [parse, readTree_eq_ok_iff, readTree_eq_ok_iff]
    simp only [Fits, maxNesting, Option.mem_def, Option.some.injEq, forall_eq', reduceCtorEq,
      false_implies, implies_true, and_true]
  · cases h : parse ts with
    | ok root =>
        have htemplate := (readTree_eq_ok_iff.mp h).1
        exact (readTree_eq_ok_iff.mpr ⟨htemplate, fits_none _⟩).symm
    | error e =>
        refine (readTree_error_unlimited h fun q hq => ?_).symm
        rw [hq] at h
        exact hdeep q (overfills_of_readTree h)

end Stencil
