import Mathlib.Data.List.Basic
import Stencil.Proofs.Numeral

/-!
# Canonical Numerals

The one way in which each integer is written.

An integer has many numerals: a plus sign may stand in front, and any number of zeros, and
zero may be negative. Of all of them one is canonical. It has no plus sign, it starts with a
zero only if it is the numeral `0`, and its minus sign never stands in front of a zero.
`Text.ofInt` writes it, and no other canonical numeral denotes the same integer.

The digits of a number are split off at the end, so both facts are inductions from the back.
What is left in front starts as the whole does, so it has no leading zero either. Its number
is therefore not zero, and the whole is not mistaken for a single digit.

## Main definitions

* `Signed`: Decimal digits with at most one sign in front, and the integer that they denote.
* `IsCanonical`: There is no plus sign, no leading zero, and no negative zero.

## Theorems

* `denotes_iff_signed`: A text denotes a word where it denotes the word's integer.
* `Text.head?_decimal`: The digits of a number have no leading zero.
* `text_decimal_decimal`: Digits without a leading zero are those of their number.
* `Signed.unique`: A text denotes one integer at most.
* `eq_ofInt_iff`: The text of an integer is its only canonical numeral.
-/

namespace Stencil

/-- Decimal digits with at most one sign in front denote an integer, however large. -/
inductive Signed : String → Int → Prop
  | unsigned {ds : List Char} : IsNumeral ds → Signed (String.ofList ds) (decimal ds)
  | plus {ds : List Char} : IsNumeral ds → Signed (String.ofList ('+' :: ds)) (decimal ds)
  | minus {ds : List Char} : IsNumeral ds → Signed (String.ofList ('-' :: ds)) (-(decimal ds : Int))

/-- There is no plus sign, no leading zero, and no negative zero. -/
inductive IsCanonical : String → Prop
  | zero : IsCanonical "0"
  | positive {ds : List Char} : IsNumeral ds → ds.head? ≠ some '0' → IsCanonical (String.ofList ds)
  | negative {ds : List Char} : IsNumeral ds → ds.head? ≠ some '0' →
    IsCanonical (String.ofList ('-' :: ds))

/-- A text denotes a word where it denotes the word's integer. -/
theorem denotes_iff_signed {s : String} {n : Int64} : Denotes s n ↔ Signed s n.toInt := by
  constructor
  · intro h
    cases h with
    | unsigned hnum hval =>
        rw [hval]
        exact .unsigned hnum
    | plus hnum hval =>
        rw [hval]
        exact .plus hnum
    | minus hnum hval =>
        rw [hval]
        exact .minus hnum
  · intro h
    generalize hval : n.toInt = i at h
    cases h with
    | unsigned hnum => exact .unsigned hnum hval
    | plus hnum => exact .plus hnum hval
    | minus hnum => exact .minus hnum hval

section Digits

variable {ds : List Char} {d : Char} {n : Nat}

theorem isNumeral_of_all (hnil : ds ≠ []) (hall : ds.all Char.isDigit = true) : IsNumeral ds :=
  ⟨hnil, List.all_eq_true.mp hall⟩

/-- The digits of a number that is not zero have no leading zero. -/
theorem Text.head?_decimal (hn : n ≠ 0) : (Text.decimal n).head? ≠ some '0' := by
  induction n using Nat.strongRecOn with
  | ind n ih =>
      rw [decimal_eq]
      by_cases hsmall : n < 10
      · rw [if_pos hsmall, List.head?_cons, ne_eq, Option.some.injEq, Nat.digitChar_eq_zero]
        exact hn
      · -- The last digit is not the first one.
        rw [if_neg hsmall, List.head?_append_of_ne_nil _ (isNumeral_decimal _).1]
        exact ih (n / 10) (by omega) (by omega)

/-- A digit has a number below ten, and is the digit of that number. -/
theorem isDigit_number (hd : d.isDigit = true) :
    d.toNat - '0'.toNat < 10 ∧ Nat.digitChar (d.toNat - '0'.toNat) = d := by
  have hzero : '0'.toNat = 48 := rfl
  have hnine : '9'.toNat = 57 := rfl
  have hrange := Char.isDigit_iff_toNat.mp hd
  have hlt : d.toNat - '0'.toNat < 10 := by omega
  refine ⟨hlt, Char.toNat_inj.mp ?_⟩
  rw [Nat.toNat_digitChar_of_lt_ten hlt]
  omega

theorem decimal_singleton (d : Char) : decimal [d] = d.toNat - '0'.toNat := by
  have hconcat := decimal_concat [] d
  have hnil : decimal [] = 0 := rfl
  rw [List.nil_append, hnil] at hconcat
  omega

theorem decimal_pos_of_head (hnum : IsNumeral ds) (hhead : ds.head? ≠ some '0') :
    0 < decimal ds := by
  induction ds using List.reverseRecOn with
  | nil => exact absurd rfl hnum.1
  | append_singleton ds d ih =>
      by_cases hnil : ds = []
      · -- A single digit is not the zero.
        subst hnil
        rcases isDigit_number (hnum.2 d List.mem_cons_self) with ⟨_, hd⟩
        rw [List.nil_append, decimal_singleton]
        refine Nat.pos_of_ne_zero fun hzero => hhead ?_
        rw [hzero] at hd
        rw [← hd]
        rfl
      · rw [List.head?_append_of_ne_nil _ hnil] at hhead
        have hpos := ih ⟨hnil, fun c hc => hnum.2 c (List.mem_append_left _ hc)⟩ hhead
        rw [decimal_concat]
        omega

/-- Digits without a leading zero are those of their number. -/
theorem text_decimal_decimal (hnum : IsNumeral ds) (hhead : ds.head? ≠ some '0') :
    Text.decimal (decimal ds) = ds := by
  induction ds using List.reverseRecOn with
  | nil => exact absurd rfl hnum.1
  | append_singleton ds d ih =>
      have hmem : d ∈ ds ++ [d] := List.mem_append_right _ List.mem_cons_self
      rcases isDigit_number (hnum.2 d hmem) with ⟨hlt, hd⟩
      by_cases hnil : ds = []
      · subst hnil
        rw [List.nil_append, decimal_singleton, Text.decimal_eq, if_pos hlt, hd]
      · -- What is in front of the last digit starts as the whole does.
        rw [List.head?_append_of_ne_nil _ hnil] at hhead
        have hfront : IsNumeral ds := ⟨hnil, fun c hc => hnum.2 c (List.mem_append_left _ hc)⟩
        have hpos := decimal_pos_of_head hfront hhead
        have hdiv : (10 * decimal ds + (d.toNat - '0'.toNat)) / 10 = decimal ds := by omega
        have hmod : (10 * decimal ds + (d.toNat - '0'.toNat)) % 10 = d.toNat - '0'.toNat := by omega
        rw [decimal_concat, Text.decimal_eq, if_neg (by omega), hdiv, hmod, ih hfront hhead, hd]

end Digits

section Integers

variable {s : String} {i : Int} {ds : List Char}

/-- A numeral does not start with a sign. -/
theorem IsNumeral.ne_cons (hnum : IsNumeral ds) {c : Char} (hc : c.isDigit = false)
    (cs : List Char) : ds ≠ c :: cs := by
  rintro rfl
  have hdigit := hnum.2 c List.mem_cons_self
  rw [hc] at hdigit
  exact nomatch hdigit

/-- Digits without a sign denote their number. -/
theorem eq_of_signed_digits (h : Signed s i) (hnum : IsNumeral ds) (hs : s.toList = ds) :
    i = decimal ds := by
  cases h with
  | unsigned _ =>
      rw [String.toList_ofList] at hs
      rw [hs]
  | plus _ =>
      rw [String.toList_ofList] at hs
      exact absurd hs.symm (hnum.ne_cons rfl _)
  | minus _ =>
      rw [String.toList_ofList] at hs
      exact absurd hs.symm (hnum.ne_cons rfl _)

/-- Digits behind a plus sign denote their number. -/
theorem eq_of_signed_plus (h : Signed s i) (hs : s.toList = '+' :: ds) : i = decimal ds := by
  cases h with
  | unsigned hnum =>
      rw [String.toList_ofList] at hs
      exact absurd hs (hnum.ne_cons rfl _)
  | plus _ =>
      rw [String.toList_ofList, List.cons.injEq] at hs
      rw [hs.2]
  | minus _ =>
      rw [String.toList_ofList, List.cons.injEq] at hs
      exact absurd hs.1 (by decide)

/-- Digits behind a minus sign denote their number with the sign turned. -/
theorem eq_of_signed_minus (h : Signed s i) (hs : s.toList = '-' :: ds) : i = -decimal ds := by
  cases h with
  | unsigned hnum =>
      rw [String.toList_ofList] at hs
      exact absurd hs (hnum.ne_cons rfl _)
  | plus _ =>
      rw [String.toList_ofList, List.cons.injEq] at hs
      exact absurd hs.1 (by decide)
  | minus _ =>
      rw [String.toList_ofList, List.cons.injEq] at hs
      rw [hs.2]

/-- A text denotes one integer at most. -/
theorem Signed.unique {j : Int} (h : Signed s i) (h' : Signed s j) : i = j := by
  cases h with
  | unsigned hnum => exact (eq_of_signed_digits h' hnum String.toList_ofList).symm
  | plus _ => exact (eq_of_signed_plus h' String.toList_ofList).symm
  | minus _ => exact (eq_of_signed_minus h' String.toList_ofList).symm

theorem ofInt_zero : Text.ofInt 0 = "0" := by
  rw [Text.ofInt, if_neg (by decide), Text.ofNat, Text.decimal_eq]
  rfl

theorem ofInt_natCast (n : Nat) : Text.ofInt n = String.ofList (Text.decimal n) := by
  rw [Text.ofInt, if_neg (by omega), Text.ofNat, Int.natAbs_natCast]

theorem ofInt_neg {n : Nat} (hn : n ≠ 0) :
    Text.ofInt (-n) = String.ofList ('-' :: Text.decimal n) := by
  rw [Text.ofInt, if_pos (by omega), Int.natAbs_neg, Int.natAbs_natCast]

/-- The text of an integer is a canonical numeral that denotes it. -/
theorem signed_ofInt (i : Int) : Signed (Text.ofInt i) i ∧ IsCanonical (Text.ofInt i) := by
  by_cases hi : i = 0
  · rw [hi, ofInt_zero]
    exact ⟨.unsigned (isNumeral_of_all (List.cons_ne_nil '0' []) rfl), .zero⟩
  · rcases Int.eq_nat_or_neg i with ⟨n, rfl | rfl⟩
    · have hsigned := Signed.unsigned (Text.isNumeral_decimal n)
      rw [decimal_decimal] at hsigned
      rw [ofInt_natCast]
      exact ⟨hsigned, .positive (Text.isNumeral_decimal n) (Text.head?_decimal (by omega))⟩
    · have hsigned := Signed.minus (Text.isNumeral_decimal n)
      rw [decimal_decimal] at hsigned
      rw [ofInt_neg (by omega)]
      exact ⟨hsigned, .negative (Text.isNumeral_decimal n) (Text.head?_decimal (by omega))⟩

/-- The text of an integer is its only canonical numeral. -/
theorem eq_ofInt_iff : s = Text.ofInt i ↔ Signed s i ∧ IsCanonical s := by
  constructor
  · rintro rfl
    exact signed_ofInt i
  · rintro ⟨hsigned, hcanonical⟩
    cases hcanonical with
    | zero =>
        have hnum : IsNumeral ['0'] := isNumeral_of_all (List.cons_ne_nil _ _) rfl
        rw [eq_of_signed_digits hsigned hnum rfl, decimal_singleton]
        exact ofInt_zero.symm
    | positive hnum hhead =>
        rw [eq_of_signed_digits hsigned hnum String.toList_ofList, ofInt_natCast,
          text_decimal_decimal hnum hhead]
    | negative hnum hhead =>
        have hpos := decimal_pos_of_head hnum hhead
        rw [eq_of_signed_minus hsigned String.toList_ofList, ofInt_neg (by omega),
          text_decimal_decimal hnum hhead]

end Integers

end Stencil
