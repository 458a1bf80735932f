import Stencil.Proofs.Grammar.Completeness

/-!
# What Is Read Is a Phrase

Every state of the reader spells out a part of the grammar.

A state keeps what has been read and is not yet complete: open blocks, statements, a
tag with waiting operators and open arrays. `Reader.Spells` says which tokens such a
state stands for, in the terms of the grammar, one definition for each part of the
state. A step adds its token to what is spelled, so a state that is reached over some
tokens spells them, and a state that may finish spells a template.

## Main definitions

* `Chain.Spells`, `OpenArray.Spells`, `OpenTag.Spells`: The tokens of an open tag.
* `BlockHead.Spells`, `spellsBlocks`: The tokens of open blocks.
* `Place.Spells`: The tokens of the tag that the reader is in.
* `Reader.Spells`: The tokens that a state stands for.

## Theorems

* `spells_close`, `spells_push`: Waiting operators and a value are an expression.
* `spells_node`: A block with its body is a tag.
* `step_spells`: A step adds its token to those of the state.
* `reads_spells`: A state stands for the tokens it is reached over.
* `template_of_readTree`: What is read is a template with the tree that is read.
-/

namespace Stencil

open Grammar

/-- The tokens of an operator that waits, with its left operand in front. -/
def Pending.Spells (phrase : List Token → Node → Prop) (additive : Bool) :
    Pending → List Token → Prop
  | none, ts => ts = []
  | some (op, lhs), ts =>
    op.isAdditive = additive ∧ ∃ us, phrase us lhs ∧ ts = us ++ [.operator op]

/-- The tokens of the operators that wait: those of a sum, then those of a product. -/
def Chain.Spells (c : Chain) (ts : List Token) : Prop :=
  ∃ as bs, c.sum.Spells Grammar.Sum true as ∧ c.product.Spells Product false bs ∧ ts = as ++ bs

theorem Chain.spells_empty : Chain.empty.Spells [] :=
  ⟨[], [], rfl, rfl, rfl⟩

/-- The operators that wait in a product and its last value are a product. -/
theorem Pending.spells_product {p : Pending} {ts us : List Token} {value : Node}
    (h : p.Spells Product false ts) (hv : Primary us value) :
    Product (ts ++ us) (p.apply value) := by
  rcases p with _ | ⟨op, lhs⟩
  · rw [h]
    exact .one hv
  · rcases h with ⟨hop, ls, hlhs, rfl⟩
    rw [List.append_assoc, List.singleton_append]
    exact .more hlhs hop hv

/-- The operators that wait in a chain and its last value are a sum. -/
theorem Chain.spells_close {c : Chain} {ts us : List Token} {value : Node} (h : c.Spells ts)
    (hv : Primary us value) : Grammar.Sum (ts ++ us) (c.close value) := by
  rcases c with ⟨sum, product⟩
  rcases h with ⟨as, bs, hsum, hproduct, rfl⟩
  have hlast := Pending.spells_product hproduct hv
  rw [List.append_assoc]
  rcases sum with _ | ⟨op, lhs⟩
  · rw [hsum]
    exact .one hlast
  · rcases hsum with ⟨hop, ls, hlhs, rfl⟩
    rw [List.append_assoc, List.singleton_append]
    exact .more hlhs hop hlast

/-- An operator behind a value waits with the others. -/
theorem Chain.spells_push {c : Chain} {ts us : List Token} {value : Node} {op : Operator}
    (h : c.Spells ts) (hv : Primary us value) :
    (c.push value op).Spells (ts ++ us ++ [.operator op]) := by
  unfold Chain.push
  by_cases hop : op.isAdditive
  · -- It completes the whole sum so far.
    rw [if_pos hop]
    exact ⟨_, [], ⟨hop, _, c.spells_close h hv, rfl⟩, rfl, (List.append_nil _).symm⟩
  · -- It completes the product only, and the sum goes on waiting.
    rw [if_neg hop]
    rcases h with ⟨as, bs, hsum, hproduct, rfl⟩
    have hproduct' := Pending.spells_product hproduct hv
    refine ⟨as, _, hsum, ⟨Bool.eq_false_iff.mpr hop, _, hproduct', rfl⟩, ?_⟩
    simp only [List.append_assoc]

/-- The tokens between the bracket of an array and its next element. -/
def OpenArray.Spells (a : OpenArray) (ts : List Token) : Prop :=
  (a.elements = [] ∧ ts = []) ∨ ∃ us, Elements us a.elements.reverse ∧ ts = us ++ [.comma]

/-- The elements of an array and one more are its elements. -/
theorem OpenArray.spells_elements {a : OpenArray} {ts us : List Token} {value : Node}
    (h : a.Spells ts) (hv : Primary us value) :
    Elements (ts ++ us) (value :: a.elements).reverse := by
  rw [List.reverse_cons]
  rcases h with ⟨hnil, rfl⟩ | ⟨vs, hvs, rfl⟩
  · rw [hnil]
    exact .one hv
  · rw [List.append_assoc, List.singleton_append]
    exact .more hvs hv

/-- An array may be closed in front of its next element. -/
theorem OpenArray.spells_close {a : OpenArray} {ts : List Token} (h : a.Spells ts) :
    Primary (.bracketOpen :: (ts ++ [.bracketClose])) (.array a.elements.reverse) := by
  rcases h with ⟨hnil, rfl⟩ | ⟨us, hus, rfl⟩
  · rw [hnil]
    exact .emptyArray
  · rw [List.append_assoc]
    exact .arrayComma hus

/-- The tokens of open arrays, the innermost first. -/
def spellsArrays : List OpenArray → List Token → Prop
  | [], ts => ts = []
  | a :: outer, ts =>
    ∃ us vs, spellsArrays outer us ∧ a.Spells vs ∧ ts = us ++ .bracketOpen :: vs

/-- The tokens from the opening of a tag to its expression. -/
def Purpose.tokens : Purpose → List Token
  | .print => [.tagOpen]
  | .condition => [.tagOpen, .keyword .ifWord]
  | .iterable name => [.tagOpen, .keyword .forWord, .identifier name, .keyword .inWord]

/-- The tokens of a tag in front of its next value. -/
def OpenTag.Spells (tag : OpenTag) (ts : List Token) : Prop :=
  ∃ cs as, tag.chain.Spells cs ∧ spellsArrays tag.arrays as ∧ ts = tag.purpose.tokens ++ cs ++ as

/-- The tokens of the opening tag of a block. -/
def BlockHead.Spells : BlockHead → List Token → Prop
  | .conditional condition, ts =>
    ∃ us, Grammar.Sum us condition ∧ ts = Purpose.condition.tokens ++ us ++ [.tagClose]
  | .loop name iterable, ts =>
    ∃ us, Grammar.Sum us iterable ∧ ts = (Purpose.iterable name).tokens ++ us ++ [.tagClose]

theorem BlockHead.spells_node {head : BlockHead} {hs us : List Token} {ns : List Node}
    (h : head.Spells hs) (hbody : Sequence us ns) :
    Tag (hs ++ us ++ endTag) (head.node (.sequence ns)) := by
  cases head with
  | conditional condition =>
      rcases h with ⟨ts, hts, rfl⟩
      rw [Purpose.tokens, List.append_assoc, List.append_assoc, List.append_assoc]
      exact Tag.ifThen hts hbody
  | loop name iterable =>
      rcases h with ⟨ts, hts, rfl⟩
      rw [Purpose.tokens, List.append_assoc, List.append_assoc, List.append_assoc]
      exact Tag.forEach hts hbody

/-- The tokens of open blocks with the statements in front of them, the innermost
    first. -/
def spellsBlocks : List OpenBlock → List Token → Prop
  | [], ts => ts = []
  | b :: outer, ts =>
    ∃ os ss hs, spellsBlocks outer os ∧ Sequence ss b.before.reverse ∧ b.head.Spells hs ∧
      ts = os ++ ss ++ hs

/-- The tokens of the tag that the reader is in. -/
def Place.Spells : Place → List Token → Prop
  | .statement, ts => ts = []
  | .tagStart _, ts => ts = [.tagOpen]
  | .endWord _, ts => ts = [.tagOpen, .keyword .endWord]
  | .loopVariable _, ts => ts = [.tagOpen, .keyword .forWord]
  | .loopIn _ name, ts => ts = [.tagOpen, .keyword .forWord, .identifier name]
  | .operand tag, ts => tag.Spells ts
  | .operator tag value, ts => ∃ us vs, tag.Spells us ∧ Primary vs value ∧ ts = us ++ vs

/-- In front of a value, a place spells the tag that the value is in. -/
theorem Place.spells_of_awaits {place : Place} {tag : OpenTag} {ts : List Token}
    (hplace : place.Awaits tag) (h : place.Spells ts) : tag.Spells ts := by
  cases hplace with
  | operand => exact h
  | tagStart =>
      rw [show ts = [.tagOpen] from h]
      exact ⟨[], [], Chain.spells_empty, rfl, rfl⟩

/-- A tag that opens a block spells the head of the block once it is complete. -/
theorem Purpose.spells_head {purpose : Purpose} {e : Node} {head : BlockHead} {ts : List Token}
    (hhead : purpose.Opens e head) (h : Grammar.Sum ts e) :
    head.Spells (purpose.tokens ++ ts ++ [.tagClose]) := by
  cases hhead with
  | condition => exact ⟨ts, h, rfl⟩
  | iterable => exact ⟨ts, h, rfl⟩

namespace Reader

/-- The tokens that a state stands for. Only inside a block does the reader wait behind
    the word that ends one. -/
def Spells (r : Reader) (ts : List Token) : Prop :=
  (∀ word, r.place = .endWord word → r.blocks ≠ []) ∧
    ∃ bs ss ps, spellsBlocks r.blocks bs ∧ Sequence ss r.statements.reverse ∧
      r.place.Spells ps ∧ ts = bs ++ ss ++ ps

variable {limit : Option Nat} {k k' : Nat} {place place' : Place} {ss : List Node}
  {bs : List OpenBlock} {t : Token} {ts : List Token}

/-- A step inside a tag adds its token there. -/
theorem spells_inTag (h : Spells ⟨k, place, ss, bs⟩ ts)
    (hend : ∀ word, place' = .endWord word → bs ≠ [])
    (hplace : ∀ ps, place.Spells ps → place'.Spells (ps ++ [t])) :
    Spells ⟨k', place', ss, bs⟩ (ts ++ [t]) := by
  rcases h with ⟨_, us, vs, ps, hus, hvs, hps, rfl⟩
  exact ⟨hend, us, vs, ps ++ [t], hus, hvs, hplace ps hps, by rw [List.append_assoc]⟩

theorem spells_addStatement {n : Node} (h : Spells ⟨k, place, ss, bs⟩ ts)
    (hplace : ∀ ps, place.Spells ps → Tag (ps ++ [t]) n) :
    Spells ⟨k', .statement, n :: ss, bs⟩ (ts ++ [t]) := by
  rcases h with ⟨_, us, vs, ps, hus, hvs, hps, rfl⟩
  refine ⟨nofun, us, vs ++ (ps ++ [t]), [], hus, ?_, rfl, ?_⟩
  · rw [List.reverse_cons]
    exact .tag hvs (hplace ps hps)
  · simp only [List.append_assoc, List.append_nil]

theorem spells_openBlock {start : Nat} {head : BlockHead} (h : Spells ⟨k, place, ss, bs⟩ ts)
    (hplace : ∀ ps, place.Spells ps → head.Spells (ps ++ [t])) :
    Spells ⟨k', .statement, [], ⟨start, head, ss⟩ :: bs⟩ (ts ++ [t]) := by
  rcases h with ⟨_, us, vs, ps, hus, hvs, hps, rfl⟩
  refine ⟨nofun, us ++ vs ++ (ps ++ [t]), [], [], ?_, .nil, rfl, ?_⟩
  · exact ⟨us, vs, ps ++ [t], hus, hvs, hplace ps hps, rfl⟩
  · simp only [List.append_assoc, List.append_nil]

/-- The end of a block completes it with its body. -/
theorem spells_closeBlock {word : Nat} {b : OpenBlock} {outer : List OpenBlock}
    (h : Spells ⟨k, .endWord word, ss, b :: outer⟩ ts) :
    Spells ⟨k', .statement, b.head.node (.sequence ss.reverse) :: b.before, outer⟩
      (ts ++ [.tagClose]) := by
  rcases h with ⟨_, _, body, ps, ⟨os, before, head, hos, hbefore, hhead, rfl⟩, hbody, hps, rfl⟩
  refine ⟨nofun, os, before ++ (head ++ body ++ endTag), [], hos, ?_, rfl, ?_⟩
  · rw [List.reverse_cons]
    exact .tag hbefore (BlockHead.spells_node hhead hbody)
  · rw [show ps = [.tagOpen, .keyword .endWord] from hps]
    simp only [endTag, List.append_assoc, List.append_nil, List.cons_append, List.nil_append]

/-- What a place behind a value spells: the tag, and in it the arrays, in front of the
    value. -/
theorem spells_operator {tag : OpenTag} {value : Node} {ps : List Token}
    (h : (Place.operator tag value).Spells ps) :
    ∃ cs as vs, tag.chain.Spells cs ∧ spellsArrays tag.arrays as ∧ Primary vs value ∧
      ps = tag.purpose.tokens ++ cs ++ as ++ vs := by
  rcases h with ⟨_, vs, ⟨cs, as, hcs, has, rfl⟩, hvs, rfl⟩
  exact ⟨cs, as, vs, hcs, has, hvs, rfl⟩

/-- Outside of all arrays, a place behind a value spells an expression. -/
theorem spells_sum {start : Nat} {purpose : Purpose} {chain : Chain} {value : Node}
    {ps : List Token} (h : (Place.operator ⟨start, purpose, chain, []⟩ value).Spells ps) :
    ∃ us, Grammar.Sum us (chain.close value) ∧ ps = purpose.tokens ++ us := by
  rcases spells_operator h with ⟨cs, _, vs, hcs, rfl, hvs, rfl⟩
  exact ⟨cs ++ vs, Chain.spells_close hcs hvs, by simp only [List.append_assoc, List.nil_append]⟩

/-- A step adds its token to those that the state stands for. -/
theorem step_spells {r s : Reader} (h : Step limit r t s) (hs : r.Spells ts) :
    s.Spells (ts ++ [t]) := by
  cases h with
  | @text _ _ _ text =>
      rcases hs with ⟨_, us, vs, ps, hus, hvs, hps, rfl⟩
      refine ⟨nofun, us, vs ++ [.text text], [], hus, ?_, rfl, ?_⟩
      · rw [List.reverse_cons]
        exact .text hvs
      · rw [show ps = [] from hps]
        simp only [List.append_assoc, List.append_nil]
  | tagOpen =>
      refine spells_inTag hs nofun fun ps hps => ?_
      rw [show ps = [] from hps]
      rfl
  | ifWord =>
      refine spells_inTag hs nofun fun ps hps => ?_
      rw [show ps = [.tagOpen] from hps]
      exact ⟨[], [], Chain.spells_empty, rfl, rfl⟩
  | forWord =>
      refine spells_inTag hs nofun fun ps hps => ?_
      rw [show ps = [.tagOpen] from hps]
      rfl
  | endWord hblocks =>
      refine spells_inTag hs (fun _ _ => hblocks) fun ps hps => ?_
      rw [show ps = [.tagOpen] from hps]
      rfl
  | loopVariable =>
      refine spells_inTag hs nofun fun ps hps => ?_
      rw [show ps = [.tagOpen, .keyword .forWord] from hps]
      rfl
  | @loopIn _ _ _ _ name =>
      refine spells_inTag hs nofun fun ps hps => ?_
      rw [show ps = [.tagOpen, .keyword .forWord, .identifier name] from hps]
      exact ⟨[], [], Chain.spells_empty, rfl, rfl⟩
  | integer hplace hn =>
      exact spells_inTag hs nofun fun ps hps =>
        ⟨ps, _, Place.spells_of_awaits hplace hps, .integer (denotes_of_readInteger? hn), rfl⟩
  | nil hplace =>
      exact spells_inTag hs nofun fun ps hps =>
        ⟨ps, _, Place.spells_of_awaits hplace hps, .nil, rfl⟩
  | lookup hplace =>
      exact spells_inTag hs nofun fun ps hps =>
        ⟨ps, _, Place.spells_of_awaits hplace hps, .lookup, rfl⟩
  | bracketOpen hplace _ =>
      -- A new array with no element is innermost.
      refine spells_inTag hs nofun fun ps hps => ?_
      rcases Place.spells_of_awaits hplace hps with ⟨cs, as, hcs, has, rfl⟩
      exact ⟨cs, as ++ [.bracketOpen], hcs, ⟨as, [], has, .inl ⟨rfl, rfl⟩, rfl⟩,
        List.append_assoc _ _ _⟩
  | @arrayEnd _ _ _ _ _ _ a =>
      -- The innermost array becomes the value.
      refine spells_inTag hs nofun fun ps hps => ?_
      rcases hps with ⟨cs, _, hcs, ⟨us, vs, hus, ha, rfl⟩, rfl⟩
      refine ⟨_, _, ⟨cs, us, hcs, hus, rfl⟩, a.spells_close ha, ?_⟩
      simp only [List.append_assoc, List.cons_append]
  | @comma _ _ _ _ _ _ a =>
      -- The value becomes the last element of the innermost array.
      refine spells_inTag hs nofun fun ps hps => ?_
      rcases spells_operator hps with ⟨cs, _, vs, hcs, ⟨us, xs, hus, ha, rfl⟩, hvs, rfl⟩
      refine ⟨cs, us ++ .bracketOpen :: (xs ++ vs ++ [.comma]), hcs, ?_, ?_⟩
      · exact ⟨us, _, hus, .inr ⟨_, a.spells_elements ha hvs, rfl⟩, rfl⟩
      · simp only [List.append_assoc, List.cons_append]
  | @bracketClose _ _ _ _ _ _ a =>
      refine spells_inTag hs nofun fun ps hps => ?_
      rcases spells_operator hps with ⟨cs, _, vs, hcs, ⟨us, xs, hus, ha, rfl⟩, hvs, rfl⟩
      refine ⟨_, _, ⟨cs, us, hcs, hus, rfl⟩, .array (a.spells_elements ha hvs), ?_⟩
      simp only [List.append_assoc, List.cons_append]
  | operator =>
      refine spells_inTag hs nofun fun ps hps => ?_
      rcases spells_operator hps with ⟨cs, _, vs, hcs, rfl, hvs, rfl⟩
      refine ⟨_, [], Chain.spells_push hcs hvs, rfl, ?_⟩
      simp only [List.append_assoc, List.append_nil]
  | print =>
      refine spells_addStatement hs fun ps hps => ?_
      rcases spells_sum hps with ⟨us, hus, rfl⟩
      exact .print hus
  | openBlock hhead _ =>
      refine spells_openBlock hs fun ps hps => ?_
      rcases spells_sum hps with ⟨us, hus, rfl⟩
      exact Purpose.spells_head hhead hus
  | closeBlock => exact spells_closeBlock hs
  | @strayEnd _ _ word =>
      -- Behind the word that ends a block, a block is open.
      exact absurd rfl (hs.1 word rfl)

/-- A state that is reached over some tokens stands for them, behind those it started
    with. -/
theorem reads_spells {r s : Reader} {us : List Token} (h : Reads limit r us s)
    (hs : r.Spells ts) : s.Spells (ts ++ us) := by
  induction h generalizing ts with
  | nil => rwa [List.append_nil]
  | cons hstep _ ih =>
      rw [List.append_cons]
      exact ih (step_spells hstep hs)

theorem start_spells : start.Spells [] :=
  ⟨nofun, [], [], [], rfl, .nil, rfl, rfl⟩

/-- A state may finish only between statements outside of all blocks. -/
theorem finish_eq_ok_iff {r : Reader} {root : Node} :
    r.finish = .ok root ↔
      r.place = .statement ∧ r.blocks = [] ∧ root = .sequence r.statements.reverse := by
  rcases r with ⟨k, place, ss, bs⟩
  cases place with
  | statement =>
      cases bs with
      | nil => simp only [finish, Except.ok.injEq, true_and, eq_comm]
      | cons b outer => simp only [finish, reduceCtorEq, false_and, and_false]
  | _ => simp only [finish, reduceCtorEq, false_and]

end Reader

/-- What is read is a template with the tree that is read. -/
theorem template_of_readTree {limit : Option Nat} {ts : List Token} {root : Node}
    (h : readTree limit ts = .ok root) : Grammar.Template ts root := by
  rcases Reader.run_eq_ok_iff.mp h with ⟨s, hreads, hfinish⟩
  rcases Reader.finish_eq_ok_iff.mp hfinish with ⟨hplace, hblocks, hroot⟩
  rcases Reader.reads_spells hreads Reader.start_spells with ⟨_, us, vs, ps, hus, hvs, hps, hts⟩
  -- Outside of all blocks and tags only the statements are left.
  rw [hblocks] at hus
  rw [hplace] at hps
  rw [List.nil_append, show us = [] from hus, show ps = [] from hps, List.append_nil,
    List.nil_append] at hts
  rw [hts]
  exact ⟨_, hvs, hroot⟩

end Stencil
