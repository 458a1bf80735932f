import Stencil.Cli.Assignment
import Stencil.Proofs.Arithmetic
import Stencil.Proofs.Numeral.Canonical

/-!
# Values Given as Text

What is printed of a value that was given as text.

A value is given as text in an assignment and printed by a template. In between it is read:
the word `nil` is the value nil, a numeral of a word is an integer, and any other text stays
as it is. So what is printed differs from what was given in two ways only. Nil is printed as
nothing, and an integer by its canonical numeral, whichever of its numerals was given. A
numeral beyond the range of words is no integer but a text, and printed digit by digit.

An integer that is printed and given again is the same integer, since its text denotes it
and is not the word `nil`.

## Theorems

* `Signed.ne_nilWord`: The word `nil` is no numeral.
* `readValue_of_fits`, `readValue_of_not_fits`: What numerals are read as.
* `display_readValue`: What is printed of a value that was given as text.
-/

namespace Stencil

variable {raw : String} {i : Int}

/-- The word `nil` is no numeral. -/
theorem Signed.ne_nilWord (h : Signed raw i) : raw ≠ "nil" := by
  rintro rfl
  generalize hword : "nil" = s at h
  have hlist : s.toList = ['n', 'i', 'l'] := by
    rw [← hword]
    rfl
  cases h with
  | unsigned hnum =>
      rw [String.toList_ofList] at hlist
      exact hnum.ne_cons rfl _ hlist
  | plus _ =>
      rw [String.toList_ofList, List.cons.injEq] at hlist
      exact absurd hlist.1 (by decide)
  | minus _ =>
      rw [String.toList_ofList, List.cons.injEq] at hlist
      exact absurd hlist.1 (by decide)

/-- The numeral of a word is read as the integer. -/
theorem readValue_of_denotes {n : Int64} (h : Denotes raw n) : readValue raw = .integer n := by
  have hne : raw ≠ "nil" := (denotes_iff_signed.mp h).ne_nilWord
  rw [readValue, if_neg hne, readInteger?_of_denotes h]

/-- A numeral within the range of words is printed as the text of its integer. -/
theorem readValue_of_fits (h : Signed raw i) (hfits : FitsWord i) :
    (readValue raw).display = Text.ofInt i := by
  rcases fitsWord_iff.mp hfits with ⟨n, rfl⟩
  rw [readValue_of_denotes (denotes_iff_signed.mpr h)]
  rfl

/-- A text other than `nil` that is no numeral within the range of words stays as it is. -/
theorem readValue_of_not_fits (hne : raw ≠ "nil") (h : ∀ i, Signed raw i → ¬ FitsWord i) :
    readValue raw = .text raw := by
  have hnone : readInteger? raw = none := by
    refine Option.eq_none_iff_forall_ne_some.mpr fun n hn => ?_
    -- What is read would be a numeral of a word.
    have hsigned := denotes_iff_signed.mp (denotes_of_readInteger? hn)
    exact h _ hsigned (fitsWord_iff.mpr ⟨n, rfl⟩)
  rw [readValue, if_neg hne, hnone]

/-- The text of an integer is read as this integer. A text is printed as it was given, except
    that the word `nil` is printed as nothing, and that a numeral within the range of words
    is printed as the only canonical numeral of the same integer. A numeral beyond the range
    stays a text. -/
theorem display_readValue :
    (∀ n : Int64, readValue (Value.integer n).display = .integer n) ∧
      (readValue "nil").display = "" ∧
      ∀ raw : String,
        (∀ i, Signed raw i → FitsWord i →
          ∀ s, (readValue raw).display = s ↔ Signed s i ∧ IsCanonical s) ∧
        (∀ i, Signed raw i → ¬ FitsWord i →
          readValue raw = .text raw ∧ (readValue raw).display = raw) ∧
        (raw ≠ "nil" → (∀ i, Signed raw i → ¬ FitsWord i) → (readValue raw).display = raw) := by
  have hverbatim : ∀ raw, raw ≠ "nil" → (∀ i, Signed raw i → ¬ FitsWord i) →
      readValue raw = .text raw ∧ (readValue raw).display = raw := by
    intro raw hne h
    have hread := readValue_of_not_fits hne h
    rw [hread]
    exact ⟨rfl, rfl⟩
  refine ⟨fun n => readValue_of_denotes (denotes_showInteger n), rfl, fun raw => ⟨?_, ?_, ?_⟩⟩
  · intro i h hfits s
    rw [readValue_of_fits h hfits, eq_comm, eq_ofInt_iff]
  · intro i h hfits
    -- No other integer is denoted that might fit.
    exact hverbatim raw h.ne_nilWord fun j hj => h.unique hj ▸ hfits
  · intro hne h
    exact (hverbatim raw hne h).2

/-- A numeral with zeros behind its sign is printed without them, and one that is a single
    step beyond the range stays as it is. -/
theorem display_readValue_signs :
    Signed "-007" (-7) ∧ (readValue "-007").display = "-7" ∧
      Signed "+9223372036854775808" 9223372036854775808 ∧
      readValue "+9223372036854775808" = .text "+9223372036854775808" := by
  have hseven : Signed "-007" (-7) :=
    @Signed.minus ['0', '0', '7'] (isNumeral_of_all (List.cons_ne_nil _ _) rfl)
  have hcanonical : Signed "-7" (-7) ∧ IsCanonical "-7" :=
    ⟨@Signed.minus ['7'] (isNumeral_of_all (List.cons_ne_nil _ _) rfl),
      @IsCanonical.negative ['7'] (isNumeral_of_all (List.cons_ne_nil _ _) rfl) (by decide)⟩
  have hlarge : Signed "+9223372036854775808" 9223372036854775808 :=
    @Signed.plus "9223372036854775808".toList (isNumeral_of_all (List.cons_ne_nil _ _) rfl)
  have hfits : FitsWord (-7) := by
    unfold FitsWord
    decide
  have hbeyond : ¬ FitsWord 9223372036854775808 := by
    unfold FitsWord
    decide
  have hrest := display_readValue.2.2
  exact ⟨hseven, ((hrest "-007").1 _ hseven hfits "-7").mpr hcanonical, hlarge,
    ((hrest "+9223372036854775808").2.1 _ hlarge hbeyond).1⟩

end Stencil
