import Stencil.Node.Reader

/-!
# Steps of the Reader

All that one token can do.

`Reader.feed` goes through the places of the reader and the tokens that may stand there,
and most combinations are errors. `Reader.Step` lists the others, each with the state
before and after. What holds of every step is shown by cases on it, without opening
`feed` again.

## Main definitions

* `Fits`: A depth is within the limit.
* `Place.Awaits`: A value may stand at a place, inside a certain tag.
* `Purpose.Opens`: What block a tag opens with its expression.
* `Reader.Step`: One token leads from one state to another.
* `Reader.Reads`: Some tokens lead from one state to another.

## Theorems

* `step_of_feed`, `feed_of_step`: A token is taken in exactly where it makes one of the steps.
* `Reads.append`: Tokens one behind the other are read one behind the other.
* `run_eq_ok_iff`: A run succeeds where the reader gets to a state that may finish.
-/

namespace Stencil

/-- A number of blocks and arrays inside each other is within the limit. -/
def Fits (limit : Option Nat) (depth : Nat) : Prop :=
  ∀ m ∈ limit, depth ≤ m

theorem Fits.mono {limit : Option Nat} {a b : Nat} (h : Fits limit b) (hab : a ≤ b) :
    Fits limit a :=
  fun m hm => Nat.le_trans hab (h m hm)

theorem fits_zero (limit : Option Nat) : Fits limit 0 :=
  fun m _ => Nat.zero_le m

/-- The limit admits one more block or array exactly where it is not full. -/
theorem isFull_eq_false_iff {limit : Option Nat} {depth : Nat} :
    Reader.isFull limit depth = false ↔ Fits limit (depth + 1) := by
  cases limit with
  | none => exact ⟨fun _ => nofun, fun _ => rfl⟩
  | some m =>
      simp only [Reader.isFull, Fits, decide_eq_false_iff_not, Nat.not_le, Option.mem_def,
        Option.some.injEq, forall_eq', Nat.lt_iff_add_one_le]

/-- A value may stand at the place, inside the tag. Right behind the opening of a tag it
    makes the tag one that prints. -/
inductive Place.Awaits : Place → OpenTag → Prop
  | operand {tag : OpenTag} : Awaits (.operand tag) tag
  | tagStart {start : Nat} : Awaits (.tagStart start) ⟨start, .print, .empty, []⟩

/-- A tag with this purpose and this expression opens the block. -/
inductive Purpose.Opens : Purpose → Node → BlockHead → Prop
  | condition {e : Node} : Opens .condition e (.conditional e)
  | iterable {name : String} {e : Node} : Opens (.iterable name) e (.loop name e)

namespace Reader

/-- One token leads from one state to another. -/
inductive Step (limit : Option Nat) : Reader → Token → Reader → Prop
  | text {k ss bs s} :
    Step limit ⟨k, .statement, ss, bs⟩ (.text s) ⟨k + 1, .statement, .text s :: ss, bs⟩
  | tagOpen {k ss bs} :
    Step limit ⟨k, .statement, ss, bs⟩ .tagOpen ⟨k + 1, .tagStart k, ss, bs⟩
  | ifWord {k ss bs start} :
    Step limit ⟨k, .tagStart start, ss, bs⟩ (.keyword .ifWord)
      ⟨k + 1, .operand ⟨start, .condition, .empty, []⟩, ss, bs⟩
  | forWord {k ss bs start} :
    Step limit ⟨k, .tagStart start, ss, bs⟩ (.keyword .forWord) ⟨k + 1, .loopVariable start, ss, bs⟩
  | endWord {k ss bs start} : bs ≠ [] →
    Step limit ⟨k, .tagStart start, ss, bs⟩ (.keyword .endWord) ⟨k + 1, .endWord k, ss, bs⟩
  | loopVariable {k ss bs start name} :
    Step limit ⟨k, .loopVariable start, ss, bs⟩ (.identifier name)
      ⟨k + 1, .loopIn start name, ss, bs⟩
  | loopIn {k ss bs start name} :
    Step limit ⟨k, .loopIn start name, ss, bs⟩ (.keyword .inWord)
      ⟨k + 1, .operand ⟨start, .iterable name, .empty, []⟩, ss, bs⟩
  | integer {k ss bs place tag digits n} : Place.Awaits place tag → readInteger? digits = some n →
    Step limit ⟨k, place, ss, bs⟩ (.integer digits) ⟨k + 1, .operator tag (.integer n), ss, bs⟩
  | nil {k ss bs place tag} : Place.Awaits place tag →
    Step limit ⟨k, place, ss, bs⟩ (.keyword .nilWord) ⟨k + 1, .operator tag .nil, ss, bs⟩
  | lookup {k ss bs place tag name} : Place.Awaits place tag →
    Step limit ⟨k, place, ss, bs⟩ (.identifier name) ⟨k + 1, .operator tag (.lookup name), ss, bs⟩
  | bracketOpen {k ss bs place tag} : Place.Awaits place tag →
    Fits limit (bs.length + tag.arrays.length + 1) →
    Step limit ⟨k, place, ss, bs⟩ .bracketOpen
      ⟨k + 1, .operand { tag with arrays := ⟨k, []⟩ :: tag.arrays }, ss, bs⟩
  /-- The end of an array with no element, or behind a comma. -/
  | arrayEnd {k ss bs start purpose chain a outer} :
    Step limit ⟨k, .operand ⟨start, purpose, chain, a :: outer⟩, ss, bs⟩ .bracketClose
      ⟨k + 1, .operator ⟨start, purpose, chain, outer⟩ (.array a.elements.reverse), ss, bs⟩
  | comma {k ss bs start purpose chain a outer value} :
    Step limit ⟨k, .operator ⟨start, purpose, chain, a :: outer⟩ value, ss, bs⟩ .comma
      ⟨k + 1, .operand ⟨start, purpose, chain, ⟨a.start, value :: a.elements⟩ :: outer⟩, ss, bs⟩
  /-- The end of an array behind its last element. -/
  | bracketClose {k ss bs start purpose chain a outer value} :
    Step limit ⟨k, .operator ⟨start, purpose, chain, a :: outer⟩ value, ss, bs⟩ .bracketClose
      ⟨k + 1, .operator ⟨start, purpose, chain, outer⟩ (.array (value :: a.elements).reverse),
        ss, bs⟩
  | operator {k ss bs start purpose chain value op} :
    Step limit ⟨k, .operator ⟨start, purpose, chain, []⟩ value, ss, bs⟩ (.operator op)
      ⟨k + 1, .operand ⟨start, purpose, chain.push value op, []⟩, ss, bs⟩
  | print {k ss bs start chain value} :
    Step limit ⟨k, .operator ⟨start, .print, chain, []⟩ value, ss, bs⟩ .tagClose
      ⟨k + 1, .statement, .print (chain.close value) :: ss, bs⟩
  | openBlock {k ss bs start purpose chain value head} :
    Purpose.Opens purpose (chain.close value) head → Fits limit (bs.length + 1) →
    Step limit ⟨k, .operator ⟨start, purpose, chain, []⟩ value, ss, bs⟩ .tagClose
      ⟨k + 1, .statement, [], ⟨start, head, ss⟩ :: bs⟩
  | closeBlock {k ss word b outer} :
    Step limit ⟨k, .endWord word, ss, b :: outer⟩ .tagClose
      ⟨k + 1, .statement, b.head.node (.sequence ss.reverse) :: b.before, outer⟩
  /-- The end of a block where none is open, which no run comes to. -/
  | strayEnd {k ss word} :
    Step limit ⟨k, .endWord word, ss, []⟩ .tagClose ⟨k, .endWord word, ss, []⟩

variable {limit : Option Nat}

/-- A token in front of a value that is taken in makes a step. -/
theorem step_of_feedOperand {k : Nat} {place : Place} {tag : OpenTag} {ss : List Node}
    {bs : List OpenBlock} {t : Token} {s : Reader} (hplace : place.Awaits tag)
    (h : feedOperand limit ⟨k, place, ss, bs⟩ tag t = .ok s) :
    Step limit ⟨k, place, ss, bs⟩ t s := by
  unfold feedOperand at h
  split at h
  · split at h
    · rename_i n hn
      cases h
      exact .integer hplace hn
    · cases h
  · cases h
    exact .nil hplace
  · cases h
    exact .lookup hplace
  · -- The bracket is refused only where the limit is full.
    split at h
    · cases h
    · rename_i hfull
      cases h
      exact .bracketOpen hplace (isFull_eq_false_iff.mp ((Bool.not_eq_true _).mp hfull))
  · split at h
    · rename_i a outer harrays
      cases h
      cases hplace with
      | operand =>
          rcases tag with ⟨start, purpose, chain, arrays⟩
          subst harrays
          exact .arrayEnd
      | tagStart =>
          -- No array is open right behind the opening of a tag.
          cases harrays
    · cases h
  · cases h

theorem step_of_openBlock {k start : Nat} {purpose : Purpose} {chain : Chain} {value : Node}
    {head : BlockHead} {ss : List Node} {bs : List OpenBlock} {s : Reader}
    (hhead : purpose.Opens (chain.close value) head)
    (h : openBlock limit ⟨k, .operator ⟨start, purpose, chain, []⟩ value, ss, bs⟩ start head
      = .ok s) :
    Step limit ⟨k, .operator ⟨start, purpose, chain, []⟩ value, ss, bs⟩ .tagClose s := by
  unfold openBlock at h
  split at h
  · cases h
  · rename_i hfull
    cases h
    exact .openBlock hhead (isFull_eq_false_iff.mp ((Bool.not_eq_true _).mp hfull))

theorem step_of_feedOperator {k : Nat} {tag : OpenTag} {value : Node} {ss : List Node}
    {bs : List OpenBlock} {t : Token} {s : Reader}
    (h : feedOperator limit ⟨k, .operator tag value, ss, bs⟩ tag value t = .ok s) :
    Step limit ⟨k, .operator tag value, ss, bs⟩ t s := by
  rcases tag with ⟨start, purpose, chain, arrays⟩
  cases arrays with
  | cons a outer =>
      simp only [feedOperator] at h
      split at h
      · cases h
        exact .comma
      · cases h
        exact .bracketClose
      · cases h
  | nil =>
      simp only [feedOperator] at h
      split at h
      · cases h
        exact .operator
      · cases purpose with
        | print =>
            cases h
            exact .print
        | condition => exact step_of_openBlock .condition h
        | iterable name => exact step_of_openBlock .iterable h
      · cases h

theorem step_of_feedTagStart {k start : Nat} {ss : List Node} {bs : List OpenBlock} {t : Token}
    {s : Reader} (h : feedTagStart limit ⟨k, .tagStart start, ss, bs⟩ start t = .ok s) :
    Step limit ⟨k, .tagStart start, ss, bs⟩ t s := by
  unfold feedTagStart at h
  split at h
  · cases h
  · cases h
    exact .ifWord
  · cases h
    exact .forWord
  · split at h
    · cases h
    · rename_i hblocks
      cases h
      exact .endWord fun hnil => hblocks (List.isEmpty_iff.mpr hnil)
  · -- Any other token starts an expression that is printed.
    exact step_of_feedOperand .tagStart h

/-- A token that is taken in makes a step. -/
theorem step_of_feed {r s : Reader} {t : Token} (h : r.feed limit t = .ok s) :
    Step limit r t s := by
  rcases r with ⟨k, place, ss, bs⟩
  cases place with
  | statement =>
      simp only [feed] at h
      split at h
      · cases h
        exact .text
      · cases h
        exact .tagOpen
      · cases h
  | tagStart start => exact step_of_feedTagStart h
  | endWord word =>
      simp only [feed] at h
      split at h
      · cases h
        cases bs with
        | nil => exact .strayEnd
        | cons b outer => exact .closeBlock
      · cases h
  | loopVariable start =>
      simp only [feed] at h
      split at h
      · cases h
        exact .loopVariable
      · cases h
  | loopIn start name =>
      simp only [feed] at h
      split at h
      · cases h
        exact .loopIn
      · cases h
  | operand tag => exact step_of_feedOperand .operand h
  | operator tag value => exact step_of_feedOperator h

/-- In front of a value, what may stand inside a tag may stand right behind its opening,
    except for the end of an array. -/
theorem feed_of_awaits {k : Nat} {place : Place} {tag : OpenTag} {ss : List Node}
    {bs : List OpenBlock} {t : Token} (hplace : place.Awaits tag)
    (ht : t = .keyword .nilWord ∨ (∃ digits, t = .integer digits) ∨
      (∃ name, t = .identifier name) ∨ t = .bracketOpen) :
    feed limit ⟨k, place, ss, bs⟩ t = feedOperand limit ⟨k, place, ss, bs⟩ tag t := by
  cases hplace with
  | operand => rfl
  | tagStart => rcases ht with rfl | ⟨_, rfl⟩ | ⟨_, rfl⟩ | rfl <;> rfl

/-- A token that makes a step is taken in. -/
theorem feed_of_step {r s : Reader} {t : Token} (h : Step limit r t s) :
    r.feed limit t = .ok s := by
  cases h with
  | endWord hblocks =>
      rename_i k ss bs start
      cases bs with
      | nil => exact absurd rfl hblocks
      | cons b outer => rfl
  | integer hplace hn =>
      -- What stands in front of a value is fed alike at both places.
      rw [feed_of_awaits hplace (.inr (.inl ⟨_, rfl⟩))]
      simp only [feedOperand, hn, goto]
  | nil hplace => exact feed_of_awaits hplace (.inl rfl)
  | lookup hplace => exact feed_of_awaits hplace (.inr (.inr (.inl ⟨_, rfl⟩)))
  | bracketOpen hplace hfits =>
      rw [feed_of_awaits hplace (.inr (.inr (.inr rfl)))]
      simp only [feedOperand, isFull_eq_false_iff.mpr hfits, Bool.false_eq_true, if_false, goto]
  | openBlock hhead hfits =>
      have hfull := isFull_eq_false_iff.mpr hfits
      cases hhead with
      | condition => simp only [feed, feedOperator, closeTag, openBlock, hfull, Bool.false_eq_true,
          if_false]
      | iterable => simp only [feed, feedOperator, closeTag, openBlock, hfull, Bool.false_eq_true,
          if_false]
  | _ => rfl

/-- Some tokens lead from one state to another, one step after the other. -/
inductive Reads (limit : Option Nat) : Reader → List Token → Reader → Prop
  | nil {r : Reader} : Reads limit r [] r
  | cons {r s u : Reader} {t : Token} {ts : List Token} :
    Step limit r t s → Reads limit s ts u → Reads limit r (t :: ts) u

theorem Reads.append {r s u : Reader} {ts us : List Token} (h : Reads limit r ts s)
    (hnext : Reads limit s us u) : Reads limit r (ts ++ us) u := by
  induction h with
  | nil => exact hnext
  | cons hstep _ ih => exact .cons hstep (ih hnext)

theorem Reads.one {r s : Reader} {t : Token} (h : Step limit r t s) : Reads limit r [t] s :=
  .cons h .nil

/-- A run succeeds where the reader gets to a state that may finish. -/
theorem run_eq_ok_iff {r : Reader} {ts : List Token} {root : Node} :
    r.run limit ts = .ok root ↔ ∃ s, Reads limit r ts s ∧ s.finish = .ok root := by
  induction ts generalizing r with
  | nil =>
      constructor
      · intro h
        exact ⟨r, .nil, h⟩
      · rintro ⟨s, hreads, hfinish⟩
        cases hreads
        exact hfinish
  | cons t ts ih =>
      rw [run]
      constructor
      · intro h
        split at h
        · rename_i s hfeed
          rcases ih.mp h with ⟨u, hreads, hfinish⟩
          exact ⟨u, .cons (step_of_feed hfeed) hreads, hfinish⟩
        · cases h
      · rintro ⟨u, hreads, hfinish⟩
        cases hreads with
        | cons hstep hreads =>
            rw [feed_of_step hstep]
            exact ih.mpr ⟨u, hreads, hfinish⟩

end Reader

end Stencil
