import Mathlib.Data.List.Induction
import Mathlib.Data.Nat.Digits.Defs
import Stencil.Integer

/-!
# What Numerals Denote

The words of 64 bits that texts stand for.

`readInteger?` computes the number of a text digit by digit and then checks that it
fits. Here the number is given by place values, lowest place last, with at most one
sign in front, and a text stands for the word that is equal to this number as an
integer. Texts of numbers beyond the range of words stand for none, because no word
is equal to them.

Numbers are written with the last digit split off and the rest written in front of it,
in decimal and in hexadecimal alike, so what holds of the digits of one base holds of
those of the other. What is written is read back: the places count for what was split
off.

## Main definitions

* `IsNumeral`: Decimal digits, at least one.
* `decimal`: The number that decimal digits denote by their places.
* `Denotes`: A text denotes a word.

## Theorems

* `narrow?_eq_some_iff`: The word for an integer is the one that is equal to it.
* `digitsValue_eq_decimal`: Computing digit by digit gives the number by places.
* `denotes_of_readInteger?`, `readInteger?_of_denotes`: Reading a text gives the word that it
  denotes.
* `Text.foldl_digits`: The digits of a number have its value, in every base.
* `readDigits?_decimal`, `readInteger?_showInteger`: A written number is read back.
-/

namespace Stencil

/-- Decimal digits, at least one, and nothing else. -/
def IsNumeral (ds : List Char) : Prop :=
  ds ≠ [] ∧ ∀ d ∈ ds, d.isDigit = true

/-- The number that decimal digits denote by their places, the lowest place last. -/
def decimal (ds : List Char) : Nat :=
  Nat.ofDigits 10 (ds.reverse.map fun d => d.toNat - '0'.toNat)

/-- A text denotes a word: a numeral with at most one sign in front, whose number is the
    word's. -/
inductive Denotes : String → Int64 → Prop
  | unsigned {ds : List Char} {n : Int64} :
    IsNumeral ds → n.toInt = decimal ds → Denotes (String.ofList ds) n
  | plus {ds : List Char} {n : Int64} :
    IsNumeral ds → n.toInt = decimal ds → Denotes (String.ofList ('+' :: ds)) n
  | minus {ds : List Char} {n : Int64} :
    IsNumeral ds → n.toInt = -(decimal ds : Int) → Denotes (String.ofList ('-' :: ds)) n

/-- The word for an integer is the one that is equal to it. -/
theorem narrow?_eq_some_iff {i : Int} {n : Int64} : narrow? i = some n ↔ n.toInt = i := by
  unfold narrow?
  constructor
  · intro h
    split at h
    · -- The two words at the ends are the bounds within which nothing wraps around.
      rename_i hfits
      have hlast := Int64.toInt_maxValue_add_one
      rw [Int64.toInt_minValue] at hfits
      rw [Option.some.injEq] at h
      rw [← h]
      exact Int64.toInt_ofInt_of_le hfits.1 (by omega)
    · exact absurd h (by simp only [reduceCtorEq, not_false_eq_true])
  · rintro rfl
    rw [if_pos ⟨n.minValue_le_toInt, n.toInt_le⟩, Int64.ofInt_toInt]

theorem decimal_concat (ds : List Char) (d : Char) :
    decimal (ds ++ [d]) = 10 * decimal ds + (d.toNat - '0'.toNat) := by
  simp only [decimal, List.reverse_append, List.reverse_singleton, List.cons_append,
    List.nil_append, List.map_cons, Nat.ofDigits_cons]
  omega

/-- Computing digit by digit gives the number by places. -/
theorem digitsValue_eq_decimal (ds : List Char) : digitsValue ds = decimal ds := by
  -- Each further digit comes last, so the induction is from the back.
  induction ds using List.reverseRecOn with
  | nil => rfl
  | append_singleton ds d ih =>
      rw [decimal_concat, ← ih]
      simp only [digitsValue, List.foldl_append, List.foldl_cons, List.foldl_nil]

theorem readDigits?_eq_some_iff {ds : List Char} {n : Nat} :
    readDigits? ds = some n ↔ IsNumeral ds ∧ decimal ds = n := by
  unfold readDigits?
  split
  · rename_i hbad
    refine ⟨nofun, fun ⟨⟨hnil, hall⟩, _⟩ => ?_⟩
    rw [Bool.or_eq_true, List.isEmpty_iff, Bool.not_eq_true', List.all_eq_false] at hbad
    rcases hbad with hempty | ⟨d, hd, hnot⟩
    · exact absurd hempty hnil
    · exact absurd (hall d hd) hnot
  · rename_i hgood
    rw [Bool.not_eq_true, Bool.or_eq_false_iff, Bool.not_eq_false', List.all_eq_true] at hgood
    have hnil : ds ≠ [] := by
      rintro rfl
      exact nomatch hgood.1
    rw [Option.some.injEq, digitsValue_eq_decimal]
    exact ⟨fun h => ⟨⟨hnil, hgood.2⟩, h⟩, fun h => h.2⟩

/-- Digits are read into the word that is equal to their number times a sign. -/
theorem readSigned_eq_some_iff {ds : List Char} {signed : Nat → Int} {n : Int64} :
    ((readDigits? ds).bind fun m => narrow? (signed m)) = some n ↔
      IsNumeral ds ∧ n.toInt = signed (decimal ds) := by
  simp only [Option.bind_eq_some_iff, readDigits?_eq_some_iff, narrow?_eq_some_iff]
  constructor
  · rintro ⟨m, ⟨hnum, rfl⟩, hval⟩
    exact ⟨hnum, hval⟩
  · rintro ⟨hnum, hval⟩
    exact ⟨_, ⟨hnum, rfl⟩, hval⟩

/-- A text that is read denotes the word. -/
theorem denotes_of_readInteger? {s : String} {n : Int64} (h : readInteger? s = some n) :
    Denotes s n := by
  rw [← String.ofList_toList (s := s)]
  unfold readInteger? at h
  split at h
  · rename_i ds hds
    rcases readSigned_eq_some_iff.mp h with ⟨hnum, hval⟩
    rw [hds]
    exact .minus hnum hval
  · rename_i ds hds
    rcases readSigned_eq_some_iff.mp h with ⟨hnum, hval⟩
    rw [hds]
    exact .plus hnum hval
  · rcases readSigned_eq_some_iff.mp h with ⟨hnum, hval⟩
    exact .unsigned hnum hval

/-- A text that denotes a word is read. -/
theorem readInteger?_of_denotes {s : String} {n : Int64} (h : Denotes s n) :
    readInteger? s = some n := by
  unfold readInteger?
  cases h with
  | @unsigned ds n hnum hval =>
      rw [String.toList_ofList]
      split
      · -- A sign is no digit.
        exact absurd (hnum.2 '-' List.mem_cons_self) (by decide)
      · exact absurd (hnum.2 '+' List.mem_cons_self) (by decide)
      · exact readSigned_eq_some_iff.mpr ⟨hnum, hval⟩
  | @plus ds n hnum hval =>
      rw [String.toList_ofList]
      exact readSigned_eq_some_iff.mpr ⟨hnum, hval⟩
  | @minus ds n hnum hval =>
      rw [String.toList_ofList]
      exact readSigned_eq_some_iff.mpr ⟨hnum, hval⟩

section Written

variable {base : Nat} {digits : Nat → List Char}

/-- What holds of every digit of a base holds of the digits of a number. -/
theorem Text.forall_mem_digits (hbase : 1 < base)
    (hdigits : ∀ n, digits n =
      if n < base then [Nat.digitChar n] else digits (n / base) ++ [Nat.digitChar (n % base)])
    {P : Char → Prop} (hP : ∀ d < base, P (Nat.digitChar d)) (n : Nat) : ∀ c ∈ digits n, P c := by
  induction n using Nat.strongRecOn with
  | ind n ih =>
      intro c hc
      rw [hdigits] at hc
      by_cases hn : n < base
      · rw [if_pos hn, List.mem_singleton] at hc
        exact hc ▸ hP n hn
      · have hless : n / base < n := Nat.div_lt_self (by omega) hbase
        rw [if_neg hn, List.mem_append, List.mem_singleton] at hc
        rcases hc with hfront | rfl
        · exact ih _ hless c hfront
        · exact hP _ (Nat.mod_lt n (by omega))

/-- The digits of a number have its value by their places, whatever the base. -/
theorem Text.foldl_digits (hbase : 1 < base)
    (hdigits : ∀ n, digits n =
      if n < base then [Nat.digitChar n] else digits (n / base) ++ [Nat.digitChar (n % base)])
    {value : Char → Nat} (hvalue : ∀ d < base, value (Nat.digitChar d) = d) (n : Nat) :
    (digits n).foldl (fun v c => base * v + value c) 0 = n := by
  induction n using Nat.strongRecOn with
  | ind n ih =>
      rw [hdigits]
      by_cases hn : n < base
      · rw [if_pos hn, List.foldl_cons, List.foldl_nil, hvalue n hn, Nat.mul_zero, Nat.zero_add]
      · have hless : n / base < n := Nat.div_lt_self (by omega) hbase
        rw [if_neg hn, List.foldl_append, ih _ hless, List.foldl_cons, List.foldl_nil,
          hvalue _ (Nat.mod_lt n (by omega))]
        exact Nat.div_add_mod n base

theorem Text.decimal_eq (n : Nat) : Text.decimal n =
    if n < 10 then [Nat.digitChar n] else Text.decimal (n / 10) ++ [Nat.digitChar (n % 10)] := by
  rw [Text.decimal]

theorem Text.hexadecimal_eq (n : Nat) : Text.hexadecimal n =
    if n < 16 then [Nat.digitChar n]
    else Text.hexadecimal (n / 16) ++ [Nat.digitChar (n % 16)] := by
  rw [Text.hexadecimal]

theorem Text.isNumeral_decimal (n : Nat) : IsNumeral (Text.decimal n) := by
  constructor
  · rw [Text.decimal]
    split
    · exact List.cons_ne_nil _ _
    · exact List.append_ne_nil_of_right_ne_nil _ (List.cons_ne_nil _ _)
  · exact Text.forall_mem_digits (by decide) Text.decimal_eq (by decide) n

theorem decimal_decimal (n : Nat) : decimal (Text.decimal n) = n := by
  rw [← digitsValue_eq_decimal]
  exact Text.foldl_digits (by decide) Text.decimal_eq (by decide) n

/-- The digits of a number are read back. -/
theorem readDigits?_decimal (n : Nat) : readDigits? (Text.decimal n) = some n :=
  readDigits?_eq_some_iff.mpr ⟨Text.isNumeral_decimal n, decimal_decimal n⟩

theorem readDigits?_ofNat (n : Nat) : readDigits? (Text.ofNat n).toList = some n := by
  rw [Text.ofNat, String.toList_ofList, readDigits?_decimal]

theorem denotes_showInteger (n : Int64) : Denotes (showInteger n) n := by
  have hnumeral := Text.isNumeral_decimal n.toInt.natAbs
  have hvalue := decimal_decimal n.toInt.natAbs
  unfold showInteger Text.ofInt Text.ofNat
  split
  · exact .minus hnumeral (by omega)
  · exact .unsigned hnumeral (by omega)

/-- The text of a word is read back. -/
theorem readInteger?_showInteger (n : Int64) : readInteger? (showInteger n) = some n :=
  readInteger?_of_denotes (denotes_showInteger n)

end Written

end Stencil
