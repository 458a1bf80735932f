import Stencil.Proofs.Grammar
import Stencil.Proofs.Grammar.Steps

/-!
# Every Phrase Is Read

The reader takes in whatever the grammar derives, as long as the nesting limit admits
it.

A phrase is read wherever it may stand: the lemmas start the reader at any place of the
right kind, with any statements read before, any open blocks and, inside a tag, any
open arrays. They end at the place behind the phrase with its tree, and everything that
was there before still is. So a phrase inside a phrase needs nothing but its own lemma,
and each lemma follows the derivation.

The reader never has to choose. A chain of operators leaves some operators waiting, so
the lemmas on chains say what the waiting operators will make of the last value and not
which ones wait.

## Theorems

* `reads_primary`, `reads_elements`: Values and elements are read.
* `reads_product`, `reads_sum`: Chains of operators are read.
* `reads_sequence`, `reads_tag`: Statements are read.
* `readTree_of_template`: A derived template within the limit is read into its tree.
-/

namespace Stencil

theorem Node.nestingAll_concat (ns : List Node) (n : Node) :
    Node.nestingAll (ns ++ [n]) = max (Node.nestingAll ns) n.nesting := by
  induction ns with
  | nil => simp only [List.nil_append, nestingAll, Nat.max_zero, Nat.zero_max]
  | cons m ns ih => simp only [List.cons_append, nestingAll, ih, Nat.max_assoc]

section

open Reader Grammar

variable {limit : Option Nat}

mutual

/-- A value is read wherever one may stand. -/
theorem reads_primary : {ts : List Token} → {n : Node} → Primary ts n →
    ∀ (k : Nat) (tag : OpenTag) (ss : List Node) (bs : List OpenBlock),
      Fits limit (bs.length + tag.arrays.length + n.nesting) →
      ∃ k', Reads limit ⟨k, .operand tag, ss, bs⟩ ts ⟨k', .operator tag n, ss, bs⟩
  | _, _, .integer hdigits, k, tag, ss, bs, _ =>
      ⟨k + 1, .one (.integer .operand (readInteger?_of_denotes hdigits))⟩
  | _, _, .nil, k, tag, ss, bs, _ => ⟨k + 1, .one (.nil .operand)⟩
  | _, _, .lookup, k, tag, ss, bs, _ => ⟨k + 1, .one (.lookup .operand)⟩
  | _, _, .emptyArray, k, tag, ss, bs, hfits =>
      ⟨k + 1 + 1, .cons (.bracketOpen .operand hfits) (.one .arrayEnd)⟩
  | _, _, .array helements, k, tag, ss, bs, hfits => by
      -- The array counts for itself, and one more than its elements.
      simp only [Node.nesting] at hfits
      rcases reads_elements helements (k + 1) k tag [] tag.arrays ss bs
        (hfits.mono (by omega)) with ⟨k', rest, last, hns, hreads⟩
      rw [List.reverse_nil, List.nil_append] at hns
      subst hns
      exact ⟨k' + 1, .cons (.bracketOpen .operand (hfits.mono (by omega)))
        (hreads.append (.one .bracketClose))⟩
  | _, _, .arrayComma helements, k, tag, ss, bs, hfits => by
      simp only [Node.nesting] at hfits
      rcases reads_elements helements (k + 1) k tag [] tag.arrays ss bs
        (hfits.mono (by omega)) with ⟨k', rest, last, hns, hreads⟩
      rw [List.reverse_nil, List.nil_append] at hns
      subst hns
      -- The comma moves the last element to the others, where the bracket finds it.
      exact ⟨k' + 1 + 1, .cons (.bracketOpen .operand (hfits.mono (by omega)))
        (hreads.append (.cons .comma (.one .arrayEnd)))⟩

/-- Elements of an array are read behind its bracket, or behind a comma in it. All but
    the last are kept with the array, the last one first. -/
theorem reads_elements : {ts : List Token} → {ns : List Node} → Elements ts ns →
    ∀ (k start : Nat) (tag : OpenTag) (before : List Node) (outer : List OpenArray)
      (ss : List Node) (bs : List OpenBlock),
      Fits limit (bs.length + (outer.length + 1) + Node.nestingAll ns) →
      ∃ k' rest last, (last :: rest).reverse = before.reverse ++ ns ∧
        Reads limit ⟨k, .operand { tag with arrays := ⟨start, before⟩ :: outer }, ss, bs⟩ ts
          ⟨k', .operator { tag with arrays := ⟨start, rest⟩ :: outer } last, ss, bs⟩
  | _, _, .one hn, k, start, tag, before, outer, ss, bs, hfits => by
      simp only [Node.nestingAll, Nat.max_zero] at hfits
      rcases reads_primary hn k { tag with arrays := ⟨start, before⟩ :: outer } ss bs hfits with
        ⟨k', hreads⟩
      exact ⟨k', before, _, List.reverse_cons, hreads⟩
  | _, _, .more helements hn, k, start, tag, before, outer, ss, bs, hfits => by
      rw [Node.nestingAll_concat] at hfits
      rcases reads_elements helements k start tag before outer ss bs (hfits.mono (by omega)) with
        ⟨k', rest, last, hns, hrest⟩
      -- The comma has moved the last element to the others.
      rcases reads_primary hn (k' + 1) { tag with arrays := ⟨start, last :: rest⟩ :: outer } ss bs
        (hfits.mono (by simp only [List.length_cons]; omega)) with ⟨k'', hlast⟩
      refine ⟨k'', last :: rest, _, ?_, hrest.append (.cons .comma hlast)⟩
      rw [List.reverse_cons, hns, List.append_assoc]

end

/-- A product is read where no other operator of its kind waits. What waits behind it
    makes the product of the last value. -/
theorem reads_product {ts : List Token} {n : Node} (h : Product ts n) :
    ∀ (k start : Nat) (purpose : Purpose) (sum : Pending) (ss : List Node) (bs : List OpenBlock),
      Fits limit (bs.length + n.nesting) →
      ∃ k' product last, product.apply last = n ∧
        Reads limit ⟨k, .operand ⟨start, purpose, ⟨sum, none⟩, []⟩, ss, bs⟩ ts
          ⟨k', .operator ⟨start, purpose, ⟨sum, product⟩, []⟩ last, ss, bs⟩ := by
  induction h with
  | one hn =>
      intro k start purpose sum ss bs hfits
      rcases reads_primary hn k ⟨start, purpose, ⟨sum, none⟩, []⟩ ss bs hfits with ⟨k', hreads⟩
      exact ⟨k', none, _, rfl, hreads⟩
  | @more ts us op lhs rhs _ hop hrhs ih =>
      intro k start purpose sum ss bs hfits
      simp only [Node.nesting] at hfits
      rcases ih k start purpose sum ss bs (hfits.mono (by omega)) with
        ⟨k', product, last, hlhs, hreads⟩
      -- The operator takes in the product so far.
      have hpush : Chain.push ⟨sum, product⟩ last op = ⟨sum, some (op, lhs)⟩ := by
        simp only [Chain.push, hop, Bool.false_eq_true, if_false, hlhs]
      rcases reads_primary hrhs (k' + 1) ⟨start, purpose, ⟨sum, some (op, lhs)⟩, []⟩ ss bs
        (hfits.mono (by simp only [List.length_nil]; omega)) with ⟨k'', hlast⟩
      exact ⟨k'', some (op, lhs), _, rfl, hreads.append (.cons (hpush ▸ .operator) hlast)⟩

/-- A sum is read at the start of a tag's expression. What waits behind it makes the sum
    of the last value. -/
theorem reads_sum {ts : List Token} {n : Node} (h : Sum ts n) :
    ∀ (k start : Nat) (purpose : Purpose) (ss : List Node) (bs : List OpenBlock),
      Fits limit (bs.length + n.nesting) →
      ∃ k' chain last, chain.close last = n ∧
        Reads limit ⟨k, .operand ⟨start, purpose, .empty, []⟩, ss, bs⟩ ts
          ⟨k', .operator ⟨start, purpose, chain, []⟩ last, ss, bs⟩ := by
  induction h with
  | one hn =>
      intro k start purpose ss bs hfits
      rcases reads_product hn k start purpose none ss bs hfits with
        ⟨k', product, last, hlast, hreads⟩
      exact ⟨k', ⟨none, product⟩, last, hlast, hreads⟩
  | @more ts us op lhs rhs _ hop hrhs ih =>
      intro k start purpose ss bs hfits
      simp only [Node.nesting] at hfits
      rcases ih k start purpose ss bs (hfits.mono (by omega)) with ⟨k', chain, last, hlhs, hreads⟩
      -- The operator takes in the whole sum so far, and a new product begins.
      have hpush : chain.push last op = ⟨some (op, lhs), none⟩ := by
        simp only [Chain.push, hop, if_true, hlhs]
      rcases reads_product hrhs (k' + 1) start purpose (some (op, lhs)) ss bs
        (hfits.mono (by omega)) with ⟨k'', product, value, hvalue, hlast⟩
      refine ⟨k'', ⟨some (op, lhs), product⟩, value, ?_,
        hreads.append (.cons (hpush ▸ .operator) hlast)⟩
      simp only [Chain.close, hvalue]
      rfl

/-- What is read in front of a value is read right behind the opening of a tag. -/
theorem reads_tagStart {k start : Nat} {ss : List Node} {bs : List OpenBlock} {ts : List Token}
    {s : Reader} (h : Reads limit ⟨k, .operand ⟨start, .print, .empty, []⟩, ss, bs⟩ ts s)
    (hnil : ts ≠ []) : Reads limit ⟨k, .tagStart start, ss, bs⟩ ts s := by
  cases h with
  | nil => exact absurd rfl hnil
  | cons hstep hrest =>
      -- Only the first token is read at another place, and an array cannot end there.
      refine .cons ?_ hrest
      cases hstep with
      | integer hplace hn =>
          cases hplace
          exact .integer .tagStart hn
      | nil hplace =>
          cases hplace
          exact .nil .tagStart
      | lookup hplace =>
          cases hplace
          exact .lookup .tagStart
      | bracketOpen hplace hfits =>
          cases hplace
          exact .bracketOpen .tagStart hfits

/-- A block is read from the end of its opening tag on, if its body is read. -/
theorem reads_block {k k' : Nat} {r : Reader} {start : Nat} {head : BlockHead} {ss ns : List Node}
    {bs : List OpenBlock} {us : List Token}
    (hopen : Step limit r .tagClose ⟨k, .statement, [], ⟨start, head, ss⟩ :: bs⟩)
    (hbody : Reads limit ⟨k, .statement, [], ⟨start, head, ss⟩ :: bs⟩ us
      ⟨k', .statement, ns.reverse, ⟨start, head, ss⟩ :: bs⟩) :
    Reads limit r (.tagClose :: (us ++ endTag))
      ⟨k' + 1 + 1 + 1, .statement, head.node (.sequence ns) :: ss, bs⟩ := by
  have hclose : Step limit ⟨k' + 1 + 1, .endWord (k' + 1), ns.reverse, ⟨start, head, ss⟩ :: bs⟩
      .tagClose ⟨k' + 1 + 1 + 1, .statement, head.node (.sequence ns.reverse.reverse) :: ss, bs⟩ :=
    .closeBlock
  rw [List.reverse_reverse] at hclose
  -- The opening tag ends, then comes the body, then the three tokens of the end.
  exact .cons hopen (hbody.append
    (.cons .tagOpen (.cons (.endWord (List.cons_ne_nil _ _)) (.one hclose))))

mutual

/-- Statements are read one behind the other. -/
theorem reads_sequence : {ts : List Token} → {ns : List Node} → Sequence ts ns →
    ∀ (k : Nat) (ss : List Node) (bs : List OpenBlock),
      Fits limit (bs.length + Node.nestingAll ns) →
      ∃ k', Reads limit ⟨k, .statement, ss, bs⟩ ts ⟨k', .statement, ns.reverse ++ ss, bs⟩
  | _, _, .nil, k, ss, bs, _ => ⟨k, .nil⟩
  | _, _, .text hts, k, ss, bs, hfits => by
      rw [Node.nestingAll_concat] at hfits
      rcases reads_sequence hts k ss bs (hfits.mono (by omega)) with ⟨k', hreads⟩
      rw [List.reverse_concat, List.cons_append]
      exact ⟨k' + 1, hreads.append (.one .text)⟩
  | _, _, .tag hts hn, k, ss, bs, hfits => by
      rw [Node.nestingAll_concat] at hfits
      rcases reads_sequence hts k ss bs (hfits.mono (by omega)) with ⟨k', hreads⟩
      rcases reads_tag hn k' _ bs (hfits.mono (by omega)) with ⟨k'', hlast⟩
      rw [List.reverse_concat, List.cons_append]
      exact ⟨k'', hreads.append hlast⟩

theorem reads_tag : {ts : List Token} → {n : Node} → Tag ts n →
    ∀ (k : Nat) (ss : List Node) (bs : List OpenBlock), Fits limit (bs.length + n.nesting) →
      ∃ k', Reads limit ⟨k, .statement, ss, bs⟩ ts ⟨k', .statement, n :: ss, bs⟩
  | _, _, .print hsum, k, ss, bs, hfits => by
      rcases reads_sum hsum (k + 1) k .print ss bs hfits with ⟨k', chain, last, rfl, hreads⟩
      -- Nothing but the expression tells this tag from the others.
      exact ⟨k' + 1, .cons .tagOpen ((reads_tagStart hreads hsum.ne_nil).append (.one .print))⟩
  | _, _, .ifThen hsum hbody, k, ss, bs, hfits => by
      simp only [Node.nesting] at hfits
      rcases reads_sum hsum (k + 1 + 1) k .condition ss bs (hfits.mono (by omega)) with
        ⟨k', chain, last, rfl, hreads⟩
      have hopen : Step limit ⟨k', .operator ⟨k, .condition, chain, []⟩ last, ss, bs⟩ .tagClose
          ⟨k' + 1, .statement, [], ⟨k, .conditional (chain.close last), ss⟩ :: bs⟩ :=
        .openBlock .condition (hfits.mono (by omega))
      rcases reads_sequence hbody (k' + 1) [] (⟨k, .conditional (chain.close last), ss⟩ :: bs)
        (hfits.mono (by simp only [List.length_cons]; omega)) with ⟨k'', hbody⟩
      rw [List.append_nil] at hbody
      exact ⟨_, .cons .tagOpen (.cons .ifWord (hreads.append (reads_block hopen hbody)))⟩
  | _, _, @Tag.forEach _ _ name _ _ hsum hbody, k, ss, bs, hfits => by
      simp only [Node.nesting] at hfits
      rcases reads_sum hsum (k + 1 + 1 + 1 + 1) k (.iterable name) ss bs
        (hfits.mono (by omega)) with ⟨k', chain, last, rfl, hreads⟩
      have hopen : Step limit ⟨k', .operator ⟨k, .iterable name, chain, []⟩ last, ss, bs⟩ .tagClose
          ⟨k' + 1, .statement, [], ⟨k, .loop name (chain.close last), ss⟩ :: bs⟩ :=
        .openBlock .iterable (hfits.mono (by omega))
      rcases reads_sequence hbody (k' + 1) [] (⟨k, .loop name (chain.close last), ss⟩ :: bs)
        (hfits.mono (by simp only [List.length_cons]; omega)) with ⟨k'', hbody⟩
      rw [List.append_nil] at hbody
      exact ⟨_, .cons .tagOpen (.cons .forWord (.cons .loopVariable (.cons .loopIn
        (hreads.append (reads_block hopen hbody)))))⟩

end

/-- A derived template is read into its tree, if its nesting is within the limit. -/
theorem readTree_of_template {ts : List Token} {root : Node} (h : Grammar.Template ts root)
    (hfits : Fits limit root.nesting) : readTree limit ts = .ok root := by
  rcases h with ⟨ns, hns, rfl⟩
  simp only [Node.nesting] at hfits
  rcases reads_sequence hns 0 [] [] (hfits.mono (by simp only [List.length_nil]; omega)) with
    ⟨k, hreads⟩
  refine run_eq_ok_iff.mpr ⟨_, hreads, ?_⟩
  simp only [finish, List.append_nil, List.reverse_reverse]

end

end Stencil
