import Stencil.Proofs.Grammar.Recognition

/-!
# Viable Tokens

How far tokens can be read is how far a template can begin with them.

Tokens are viable where some template goes on from them. A reader without a limit takes
in exactly these: the tokens of a template are all taken in, the first ones too, and from
each state that tokens lead to a few more tokens lead to the end of a template. So a
token that is refused is the first one that no template has at its place.

What is open at the end of viable tokens can be said in the terms of the grammar. Behind
the bracket of the innermost open array come whole elements only, and behind the opening
tag of the innermost open block whole statements only. The reader keeps where each array
and each block was opened, and it is there that the grammar finds them.

## Main definitions

* `Grammar.Viable`: Some template begins with the tokens.
* `Grammar.InnermostArray`: Where the innermost open array opens.
* `Grammar.Opening`, `Grammar.InnermostBlock`: Where the innermost open block opens.
* `Reader.Finishes`: Some more tokens lead to the end of a template.

## Theorems

* `Reads.unique`: Tokens lead to one state at most.
* `viable_iff`: Exactly the viable tokens are taken in without a limit.
* `reads_position`: The position counts the tokens that have been read.
* `innermostArray_iff`, `innermostBlock_iff`: The innermost array and block of a state are
  those that are still open.
-/

namespace Stencil

namespace Grammar

/-- Some template of the grammar begins with the tokens. -/
def Viable (ts : List Token) : Prop :=
  ∃ us root, Template (ts ++ us) root

/-- The bracket at the position opens the innermost array that is still open at the end of
    the tokens: behind it come whole elements only, the last one with a comma or
    without. -/
def InnermostArray (ts : List Token) (p : Nat) : Prop :=
  ∃ front inner, ts = front ++ .bracketOpen :: inner ∧ front.length = p ∧
    (inner = [] ∨ ∃ us ns, Elements us ns ∧ (inner = us ∨ inner = us ++ [.comma]))

/-- The tokens of the tag that opens a block of a kind. -/
inductive Opening : BlockKind → List Token → Prop
  | conditional {ts : List Token} {condition : Node} : Sum ts condition →
    Opening .conditional (.tagOpen :: .keyword .ifWord :: (ts ++ [.tagClose]))
  | loop {ts : List Token} {name : String} {iterable : Node} : Sum ts iterable →
    Opening .loop (.tagOpen :: .keyword .forWord :: .identifier name :: .keyword .inWord ::
      (ts ++ [.tagClose]))

/-- The tag at the position opens the innermost block that is still open at the end of the
    tokens: behind it come whole statements only. -/
def InnermostBlock (ts : List Token) (kind : BlockKind) (p : Nat) : Prop :=
  ∃ front opening body ns, ts = front ++ opening ++ body ∧ front.length = p ∧
    Opening kind opening ∧ Sequence body ns

end Grammar

open Grammar

/-- The arrays that are open at a place, the innermost first. -/
def Place.arrays : Place → List OpenArray
  | .operand tag => tag.arrays
  | .operator tag _ => tag.arrays
  | _ => []

/-- Without a limit every depth is within it. -/
theorem fits_none (depth : Nat) : Fits none depth := nofun

namespace Reader

variable {limit : Option Nat} {r s u : Reader} {t : Token} {ts us : List Token}

/-- A token leads to one state at most. -/
theorem Step.unique (h : Step limit r t s) (h' : Step limit r t u) : s = u :=
  Except.ok.inj ((feed_of_step h).symm.trans (feed_of_step h'))

/-- Tokens lead to one state at most. -/
theorem Reads.unique (h : Reads limit r ts s) (h' : Reads limit r ts u) : s = u := by
  induction h with
  | nil =>
      cases h'
      rfl
  | cons hstep _ ih =>
      cases h' with
      | cons hstep' hrest =>
          rw [← hstep.unique hstep'] at hrest
          exact ih hrest

/-- Between tokens one behind the other there is a state. -/
theorem Reads.split (h : Reads limit r (ts ++ us) u) :
    ∃ s, Reads limit r ts s ∧ Reads limit s us u := by
  induction ts generalizing r with
  | nil => exact ⟨r, .nil, h⟩
  | cons t ts ih =>
      cases h with
      | cons hstep hrest =>
          rcases ih hrest with ⟨s, hfront, hback⟩
          exact ⟨s, .cons hstep hfront, hback⟩

/-- What a limit admits is taken in without one. -/
theorem Step.unlimited (h : Step limit r t s) : Step none r t s := by
  cases h with
  | text => exact .text
  | tagOpen => exact .tagOpen
  | ifWord => exact .ifWord
  | forWord => exact .forWord
  | endWord hblocks => exact .endWord hblocks
  | loopVariable => exact .loopVariable
  | loopIn => exact .loopIn
  | integer hplace hn => exact .integer hplace hn
  | nil hplace => exact .nil hplace
  | lookup hplace => exact .lookup hplace
  | bracketOpen hplace _ => exact .bracketOpen hplace (fits_none _)
  | arrayEnd => exact .arrayEnd
  | comma => exact .comma
  | bracketClose => exact .bracketClose
  | operator => exact .operator
  | print => exact .print
  | openBlock hhead _ => exact .openBlock hhead (fits_none _)
  | closeBlock => exact .closeBlock
  | strayEnd => exact .strayEnd

theorem Reads.unlimited (h : Reads limit r ts s) : Reads none r ts s := by
  induction h with
  | nil => exact .nil
  | cons hstep _ ih => exact .cons hstep.unlimited ih

/-- Some more tokens lead to the end of a template. -/
def Finishes (r : Reader) : Prop :=
  ∃ us root, r.run none us = .ok root

theorem finishes_of_step (h : Step none r t s) (hs : s.Finishes) : r.Finishes := by
  rcases hs with ⟨us, root, hrun⟩
  refine ⟨t :: us, root, ?_⟩
  rw [run, feed_of_step h]
  exact hrun

/-- Between statements the open blocks can be closed. -/
theorem finishes_statement (k : Nat) (ss : List Node) (bs : List OpenBlock) :
    Finishes ⟨k, .statement, ss, bs⟩ := by
  induction bs generalizing k ss with
  | nil => exact ⟨[], _, rfl⟩
  | cons b outer ih =>
      -- The three tokens of an end tag leave one open block less.
      have hclosed : Finishes ⟨k + 1 + 1, .endWord (k + 1), ss, b :: outer⟩ :=
        finishes_of_step .closeBlock (ih _ _)
      have hword : Finishes ⟨k + 1, .tagStart k, ss, b :: outer⟩ :=
        finishes_of_step (.endWord (List.cons_ne_nil _ _)) hclosed
      exact finishes_of_step .tagOpen hword

/-- Behind a value the open arrays and the tag can be closed. -/
theorem finishes_operator (k : Nat) (tag : OpenTag) (value : Node) (ss : List Node)
    (bs : List OpenBlock) : Finishes ⟨k, .operator tag value, ss, bs⟩ := by
  rcases tag with ⟨start, purpose, chain, arrays⟩
  induction arrays generalizing k value with
  | nil =>
      cases purpose with
      | print => exact finishes_of_step .print (finishes_statement _ _ _)
      | condition =>
          exact finishes_of_step (.openBlock .condition (fits_none _)) (finishes_statement _ _ _)
      | iterable name =>
          exact finishes_of_step (.openBlock .iterable (fits_none _)) (finishes_statement _ _ _)
  | cons a outer ih =>
      -- A bracket makes the innermost array the value, whatever is open around it.
      exact finishes_of_step .bracketClose (ih _ _)

theorem finishes_awaits {k : Nat} {place : Place} {tag : OpenTag} {ss : List Node}
    {bs : List OpenBlock} (hplace : place.Awaits tag) : Finishes ⟨k, place, ss, bs⟩ :=
  finishes_of_step (.nil hplace) (finishes_operator _ _ _ _ _)

theorem finishes_loopIn (k start : Nat) (name : String) (ss : List Node) (bs : List OpenBlock) :
    Finishes ⟨k, .loopIn start name, ss, bs⟩ :=
  finishes_of_step .loopIn (finishes_awaits .operand)

/-- A state that stands for some tokens is on the way to a template. -/
theorem finishes_of_spells (h : r.Spells ts) : r.Finishes := by
  rcases r with ⟨k, place, ss, bs⟩
  cases place with
  | statement => exact finishes_statement k ss bs
  | tagStart start => exact finishes_awaits .tagStart
  | endWord word =>
      cases bs with
      | nil => exact absurd rfl (h.1 word rfl)
      | cons b outer => exact finishes_of_step .closeBlock (finishes_statement _ _ _)
  | loopVariable start =>
      exact finishes_of_step (@Step.loopVariable none k ss bs start "x") (finishes_loopIn _ _ _ _ _)
  | loopIn start name => exact finishes_loopIn k start name ss bs
  | operand tag => exact finishes_awaits .operand
  | operator tag value => exact finishes_operator k tag value ss bs

/-- The end of a block is read only where one is open, so each step counts its token. -/
theorem step_position (h : Step limit r t s) (hr : r.Spells ts) :
    s.position = r.position + 1 := by
  cases h with
  | strayEnd => exact absurd rfl (hr.1 _ rfl)
  | _ => rfl

theorem Reads.position (h : Reads limit r us s) (hr : r.Spells ts) :
    s.position = r.position + us.length := by
  induction h generalizing ts with
  | nil => rfl
  | cons hstep _ ih =>
      rw [ih (step_spells hstep hr), step_position hstep hr, List.length_cons]
      omega

/-- The position counts the tokens that have been read. -/
theorem reads_position (h : Reads limit start ts r) : r.position = ts.length := by
  rw [h.position start_spells]
  exact Nat.zero_add _

/-- The word that ends a block is the last token that has been read. -/
theorem Reads.word (h : Reads limit r us s)
    (hr : ∀ word, r.place = .endWord word → word + 1 = r.position) :
    ∀ word, s.place = .endWord word → word + 1 = s.position := by
  induction h with
  | nil => exact hr
  | cons hstep _ ih =>
      refine ih fun word hword => ?_
      cases hstep with
      | endWord hblocks =>
          -- The word is at the position that the step counts.
          cases hword
          rfl
      | strayEnd => exact hr word hword
      | _ => exact nomatch hword

theorem reads_word {word : Nat} (h : Reads limit start ts r) (hplace : r.place = .endWord word) :
    word + 1 = ts.length := by
  rw [← reads_position h]
  exact h.word nofun word hplace

end Reader

open Reader

/-- Exactly the tokens that some template begins with are taken in without a limit. -/
theorem viable_iff {ts : List Token} : Viable ts ↔ ∃ r, Reads none start ts r := by
  constructor
  · rintro ⟨us, root, htemplate⟩
    have hread : readTree none (ts ++ us) = .ok root := readTree_of_template htemplate nofun
    -- The whole template is read, and on the way its first tokens are.
    rcases run_eq_ok_iff.mp hread with ⟨s, hreads, _⟩
    rcases hreads.split with ⟨r, hfront, _⟩
    exact ⟨r, hfront⟩
  · rintro ⟨r, hreads⟩
    have hspells : r.Spells ts := reads_spells hreads start_spells
    rcases finishes_of_spells hspells with ⟨us, root, hrun⟩
    rcases run_eq_ok_iff.mp hrun with ⟨s, hrest, hfinish⟩
    exact ⟨us, root, template_of_readTree (run_eq_ok_iff.mpr ⟨s, hreads.append hrest, hfinish⟩)⟩

section

variable {r : Reader} {ts us vs : List Token} {ns : List Node} {p k : Nat} {kind : BlockKind}

/-- Where an array is open, the tokens that a state stands for have an open array. -/
theorem exists_innermostArray {a : OpenArray} {outer : List OpenArray} (h : r.Spells ts)
    (harrays : r.place.arrays = a :: outer) : ∃ p, InnermostArray ts p := by
  rcases r with ⟨k, place, ss, bs⟩
  rcases h with ⟨_, us, vs, ps, _, _, hps, rfl⟩
  cases place with
  | operand tag =>
      rcases hps with ⟨cs, as, _, has, rfl⟩
      rw [show tag.arrays = a :: outer from harrays] at has
      rcases has with ⟨as, xs, _, ha, rfl⟩
      refine ⟨_, us ++ vs ++ (tag.purpose.tokens ++ cs ++ as), xs, ?_, rfl, ?_⟩
      · simp only [List.append_assoc]
      · rcases ha with ⟨_, hxs⟩ | ⟨es, hes, hxs⟩
        · exact .inl hxs
        · exact .inr ⟨es, _, hes, .inr hxs⟩
  | operator tag value =>
      rcases spells_operator hps with ⟨cs, as, ws, _, has, hvalue, rfl⟩
      rw [show tag.arrays = a :: outer from harrays] at has
      rcases has with ⟨as, xs, _, ha, rfl⟩
      refine ⟨_, us ++ vs ++ (tag.purpose.tokens ++ cs ++ as), xs ++ ws, ?_, rfl, ?_⟩
      · simp only [List.append_assoc, List.cons_append]
      · exact .inr ⟨xs ++ ws, _, OpenArray.spells_elements ha hvalue, .inl rfl⟩
  | _ => exact nomatch harrays

/-- The reader keeps where the innermost open array opens. -/
theorem start_of_innermostArray (h : Reads none start ts r) (hp : InnermostArray ts p) :
    ∃ a outer, r.place.arrays = a :: outer ∧ a.start = p := by
  rcases hp with ⟨front, inner, rfl, rfl, hinner⟩
  rcases h.split with ⟨s, hfront, hrest⟩
  have hposition := reads_position hfront
  -- The bracket is read where an array may start, so it opens one at its own position.
  cases hrest with
  | cons hbracket hrest =>
      cases hbracket with
      | @bracketOpen k ss bs _ tag _ _ =>
          subst hposition
          rcases hinner with rfl | ⟨us, ns, helements, hinner⟩
          · cases hrest
            exact ⟨_, _, rfl, rfl⟩
          · rcases reads_elements helements (front.length + 1) front.length tag [] tag.arrays ss bs
              (fits_none _) with ⟨k', rest, last, _, hreads⟩
            -- A comma moves the last element to the others and leaves the bracket where it is.
            rcases hinner with rfl | rfl
            · rw [hrest.unique hreads]
              exact ⟨_, _, rfl, rfl⟩
            · rw [hrest.unique (hreads.append (.one .comma))]
              exact ⟨_, _, rfl, rfl⟩

/-- The innermost open array of a state is the one that is still open. -/
theorem innermostArray_iff {a : OpenArray} {outer : List OpenArray} (h : Reads none start ts r)
    (harrays : r.place.arrays = a :: outer) : InnermostArray ts p ↔ p = a.start := by
  have hstart : ∀ q, InnermostArray ts q → q = a.start := by
    intro q hq
    rcases start_of_innermostArray h hq with ⟨a', outer', harrays', rfl⟩
    rw [harrays, List.cons.injEq] at harrays'
    rw [harrays'.1]
  constructor
  · exact hstart p
  · rintro rfl
    rcases exists_innermostArray (reads_spells h start_spells) harrays with ⟨q, hq⟩
    rw [← hstart q hq]
    exact hq

theorem BlockHead.opening {head : BlockHead} (h : head.Spells ts) : Opening head.kind ts := by
  cases head with
  | conditional condition =>
      rcases h with ⟨us, hus, rfl⟩
      exact .conditional hus
  | loop name iterable =>
      rcases h with ⟨us, hus, rfl⟩
      exact .loop hus

/-- Behind open blocks and whole statements the innermost of the blocks is still open. -/
theorem exists_innermostBlock {b : OpenBlock} {outer : List OpenBlock}
    (h : spellsBlocks (b :: outer) us) (hbody : Sequence vs ns) :
    ∃ p, InnermostBlock (us ++ vs) b.head.kind p := by
  rcases h with ⟨os, before, hs, _, _, hhead, rfl⟩
  exact ⟨_, os ++ before, hs, vs, ns, rfl, rfl, BlockHead.opening hhead, hbody⟩

/-- An opening tag is read between statements, and the block that it opens keeps where the
    tag opens. -/
theorem reads_opening (h : Opening kind ts) (k : Nat) (ss : List Node) (bs : List OpenBlock) :
    ∃ k' head, head.kind = kind ∧
      Reads none ⟨k, .statement, ss, bs⟩ ts ⟨k', .statement, [], ⟨k, head, ss⟩ :: bs⟩ := by
  cases h with
  | conditional hsum =>
      rcases reads_sum hsum (k + 1 + 1) k .condition ss bs (fits_none _) with
        ⟨k', chain, last, rfl, hreads⟩
      exact ⟨k' + 1, _, rfl, .cons .tagOpen (.cons .ifWord
        (hreads.append (.one (.openBlock .condition (fits_none _)))))⟩
  | @loop _ name _ hsum =>
      rcases reads_sum hsum (k + 1 + 1 + 1 + 1) k (.iterable name) ss bs (fits_none _) with
        ⟨k', chain, last, rfl, hreads⟩
      exact ⟨k' + 1, _, rfl, .cons .tagOpen (.cons .forWord (.cons .loopVariable (.cons .loopIn
        (hreads.append (.one (.openBlock .iterable (fits_none _)))))))⟩

/-- A tag opens between statements only. -/
theorem place_of_opening {s : Reader} (h : Opening kind ts) (hreads : Reads none r ts s) :
    r.place = .statement := by
  have hstep : ∀ us, Reads none r (.tagOpen :: us) s → r.place = .statement := by
    intro us hus
    cases hus with
    | cons htag _ =>
        cases htag
        rfl
  cases h with
  | conditional _ => exact hstep _ hreads
  | loop _ => exact hstep _ hreads

/-- The reader keeps where the innermost open block opens. -/
theorem start_of_innermostBlock (h : Reads none start ts r) (hp : InnermostBlock ts kind p) :
    r.place = .statement ∧
      ∃ b outer, r.blocks = b :: outer ∧ b.head.kind = kind ∧ b.start = p := by
  rcases hp with ⟨front, opening, body, ns, rfl, rfl, hopening, hbody⟩
  rcases h.split with ⟨s, htag, hrest⟩
  rcases htag.split with ⟨⟨k, place, ss, bs⟩, hfront, htag⟩
  have hposition : k = front.length := reads_position hfront
  have hplace : place = .statement := place_of_opening hopening htag
  subst hposition hplace
  rcases reads_opening hopening front.length ss bs with ⟨k', head, hkind, hreads⟩
  rw [htag.unique hreads] at hrest
  -- The body leaves the blocks around it as they are.
  rcases reads_sequence hbody k' [] (⟨front.length, head, ss⟩ :: bs) (fits_none _) with
    ⟨k'', hreads⟩
  rw [hrest.unique hreads]
  exact ⟨rfl, _, _, rfl, hkind, rfl⟩

/-- Between statements, the innermost open block of a state is the one that is still
    open. -/
theorem innermostBlock_iff {b : OpenBlock} {outer : List OpenBlock} (h : Reads none start ts r)
    (hplace : r.place = .statement) (hblocks : r.blocks = b :: outer) :
    InnermostBlock ts kind p ↔ kind = b.head.kind ∧ p = b.start := by
  have hstart : ∀ kind q, InnermostBlock ts kind q → kind = b.head.kind ∧ q = b.start := by
    intro kind q hq
    rcases start_of_innermostBlock h hq with ⟨_, b', outer', hblocks', rfl, rfl⟩
    rw [hblocks, List.cons.injEq] at hblocks'
    rw [hblocks'.1]
    exact ⟨rfl, rfl⟩
  constructor
  · exact hstart kind p
  · rintro ⟨rfl, rfl⟩
    rcases reads_spells h start_spells with ⟨_, us, vs, ps, hus, hvs, hps, rfl⟩
    rw [hplace] at hps
    rw [hblocks] at hus
    rw [show ps = [] from hps, List.append_nil] at hstart ⊢
    rcases exists_innermostBlock hus hvs with ⟨q, hq⟩
    rw [← (hstart _ q hq).2]
    exact hq

end

end Stencil
