import Mathlib.Data.Rat.Floor
import Stencil.Proofs.Numeral

/-!
# Exact Arithmetic

The operators on words give the exact result wherever it is a word, and say why there is
none elsewhere.

Addition, subtraction and multiplication are exact by definition: they are done on integers,
and the result is narrowed. Division is not. It takes the truncated quotient and the
remainder of two words and lowers the quotient by one where the division is inexact and the
signs differ, with operations that wrap around. So three things have to be shown. The
quotient of two words is a word unless the least one is divided by minus one. A quotient
that is lowered is not the least word, so lowering it does not wrap around: an inexact
division has a divisor beyond one, up or down, and its quotient stays away from the end of
the range. And the lowered quotient is the rational quotient rounded down.

## Main definitions

* `Operator.exact`: The result of an operator on integers, with quotients rounded down.
* `FitsWord`: An integer is that of a word.
* `quotient?`, `remainder?`: The steps of a division, each of which may have no result.
* `floorDivSteps`: Division with each of its steps checked.

## Theorems

* `floor_div_eq_fdiv`: Rounding down the rational quotient.
* `fdiv_eq_tdiv_lowered`: The quotient that is rounded down is the truncated one, lowered
  where the division is inexact and the signs differ.
* `quotient?_eq`, `toInt_div_sub_one`: Where there is a quotient, and that it may be lowered.
* `floorDivSteps_eq`: No step behind the quotient is without a result.
* `onIntegers_exact`: When an operator has a result, which one, and what it fails with.
-/

namespace Stencil

/-- The exact result of an operator on integers. A quotient is rounded down. -/
def Operator.exact : Operator → Int → Int → Int
  | .add, a, b => a + b
  | .sub, a, b => a - b
  | .mul, a, b => a * b
  | .div, a, b => ⌊(a / b : ℚ)⌋

/-- The integer is that of a word. -/
def FitsWord (n : Int) : Prop :=
  -2 ^ 63 ≤ n ∧ n ≤ 2 ^ 63 - 1

/-- The truncated quotient of two words, where there is one. -/
def quotient? (a b : Int64) : Option Int64 :=
  if b = 0 then none else narrow? (a.toInt.tdiv b.toInt)

/-- The remainder that belongs to the truncated quotient. Without a quotient there is no
    remainder, though it would be a word. -/
def remainder? (a b : Int64) : Option Int64 :=
  (quotient? a b).bind fun _ => narrow? (a.toInt.tmod b.toInt)

/-- The quotient rounded down, computed in steps none of which wraps around. Without a first
    quotient there is no result, and outside of it `none` stands for a later step that has
    none. -/
def floorDivSteps (a b : Int64) : Option (Option Int64) :=
  match quotient? a b with
  | none => some none
  | some quotient => do
    let remainder ← remainder? a b
    if remainder ≠ 0 ∧ (a < 0) ≠ (b < 0) then
      let lowered ← narrow? (quotient.toInt - 1)
      some (some lowered)
    else some (some quotient)

section Integers

variable {a b m : Int}

/-- Rounding down the rational quotient. -/
theorem floor_div_eq_fdiv (a b : Int) : ⌊(a / b : ℚ)⌋ = a.fdiv b := by
  have hnonneg : ∀ (a : Int) (d : Nat), ⌊(a / (d : Int) : ℚ)⌋ = a.fdiv d := by
    intro a d
    rw [Int.cast_natCast, Rat.floor_intCast_div_natCast, Int.fdiv_eq_ediv_of_nonneg a (by omega)]
  rcases Int.eq_nat_or_neg b with ⟨d, rfl | rfl⟩
  · exact hnonneg a d
  · -- Both signs may be turned.
    have hneg := hnonneg (-a) d
    rw [← Int.neg_neg (d : Int), Int.neg_fdiv_neg, Int.neg_neg] at hneg
    rw [← hneg, Int.cast_neg, Int.cast_neg, div_neg, neg_div]

/-- The quotient that is rounded down is the truncated one, lowered where the division is
    inexact and the signs differ. -/
theorem fdiv_eq_tdiv_lowered (hb : b ≠ 0) :
    a.fdiv b = if a.tmod b ≠ 0 ∧ (a < 0) ≠ (b < 0) then a.tdiv b - 1 else a.tdiv b := by
  simp only [Int.fdiv_eq_tdiv, Int.dvd_iff_tmod_eq_zero, ne_eq, eq_iff_iff]
  rcases Int.lt_or_gt_of_ne hb with hneg | hpos
  · rw [Int.sign_eq_neg_one_of_neg hneg]
    split_ifs <;> omega
  · rw [Int.sign_eq_one_of_pos hpos]
    split_ifs <;> omega

/-- Rounding the quotient down does not lead further below zero than the dividend is away
    from it. -/
theorem neg_le_fdiv (hlo : -m ≤ a) (hhi : a ≤ m) : -m ≤ a.fdiv b := by
  -- A quotient below the bound would leave a dividend below it.
  have hpos : ∀ c d : Int, 0 < d → -m ≤ c → c ≤ m → -m ≤ c.fdiv d := by
    intro c d hd hc hcm
    by_contra hlt
    have hfloor := Int.lt_fdiv_add_one_mul_self c hd
    have hmul : (c.fdiv d + 1) * d ≤ (c.fdiv d + 1) * 1 :=
      Int.mul_le_mul_of_nonpos_left (by omega) (by omega)
    omega
  rcases Int.lt_trichotomy b 0 with hb | rfl | hb
  · rw [← Int.neg_fdiv_neg]
    exact hpos _ _ (by omega) (by omega) (by omega)
  · rw [Int.fdiv_zero]
    omega
  · exact hpos a b hb hlo hhi

end Integers

section Words

variable {a b r : Int64} {n : Int}

theorem narrow?_eq_none_iff : narrow? n = none ↔ ¬ FitsWord n := by
  have hmax : Int64.maxValue.toInt = 2 ^ 63 - 1 := rfl
  unfold narrow? FitsWord
  rw [Int64.toInt_minValue, hmax]
  split
  · exact ⟨nofun, fun h => absurd ‹_› h⟩
  · exact ⟨fun _ => ‹_›, fun _ => rfl⟩

/-- An integer fits where some word is equal to it. -/
theorem fitsWord_iff : FitsWord n ↔ ∃ r : Int64, r.toInt = n := by
  rw [← not_iff_not, ← narrow?_eq_none_iff, Option.eq_none_iff_forall_ne_some, not_exists]
  simp only [ne_eq, narrow?_eq_some_iff]

theorem toInt_ne_zero (h : b ≠ 0) : b.toInt ≠ 0 :=
  fun hzero => h (Int64.toInt_inj.mp hzero)

/-- Two words have a truncated quotient that is a word unless the divisor is zero, or the
    least word is divided by minus one. -/
theorem toInt_div (h : ¬ (b = 0 ∨ (a = Int64.minValue ∧ b = -1))) :
    (a / b).toInt = a.toInt.tdiv b.toInt := by
  by_cases hone : b = -1
  · exact Int64.toInt_div_of_ne_left a b fun ha => h (.inr ⟨ha, hone⟩)
  · exact Int64.toInt_div_of_ne_right a b hone

theorem quotient?_eq (a b : Int64) :
    quotient? a b = if b = 0 ∨ (a = Int64.minValue ∧ b = -1) then none else some (a / b) := by
  unfold quotient?
  split
  · rename_i hzero
    rw [if_pos (.inl hzero)]
  · rename_i hzero
    split
    · -- The quotient is one more than the greatest word.
      rename_i hleast
      rcases hleast.resolve_left hzero with ⟨rfl, rfl⟩
      rfl
    · exact narrow?_eq_some_iff.mpr (toInt_div ‹_›)

/-- The quotient that is rounded down is the one of the words, lowered where the division of
    the words is inexact and their signs differ. -/
theorem floor_eq_lowered (h : ¬ (b = 0 ∨ (a = Int64.minValue ∧ b = -1))) :
    ⌊(a.toInt / b.toInt : ℚ)⌋ =
      if a % b ≠ 0 ∧ (a < 0) ≠ (b < 0) then (a / b).toInt - 1 else (a / b).toInt := by
  have hexact : a % b = 0 ↔ a.toInt.tmod b.toInt = 0 := by
    rw [← Int64.toInt_mod]
    exact Int64.toInt_inj.symm
  have hsign : ∀ c : Int64, c < 0 ↔ c.toInt < 0 := fun c => Int64.lt_iff_toInt_lt
  rw [floor_div_eq_fdiv, fdiv_eq_tdiv_lowered (toInt_ne_zero fun hb => h (.inl hb)), toInt_div h]
  simp only [ne_eq, hexact, hsign]

/-- A quotient that is lowered is not the least word. -/
theorem toInt_div_sub_one (h : ¬ (b = 0 ∨ (a = Int64.minValue ∧ b = -1)))
    (hlower : a % b ≠ 0 ∧ (a < 0) ≠ (b < 0)) : (a / b - 1).toInt = (a / b).toInt - 1 := by
  have hfloor := floor_eq_lowered h
  rw [if_pos hlower, floor_div_eq_fdiv] at hfloor
  -- The lowered quotient is no further from zero than the dividend may be.
  have hlo : -2 ^ 63 ≤ a.toInt.fdiv b.toInt :=
    neg_le_fdiv a.le_toInt (by have := a.toInt_lt; omega)
  have hhi := (a / b).toInt_lt
  rw [Int64.toInt_sub, Int64.toInt_one]
  exact Int.bmod_eq_of_le (by omega) (by omega)

/-- Where the words have a quotient, floor division gives it, rounded down. -/
theorem exists_floorDiv? (h : ¬ (b = 0 ∨ (a = Int64.minValue ∧ b = -1))) :
    ∃ r, floorDiv? a b = some r ∧ r.toInt = ⌊(a.toInt / b.toInt : ℚ)⌋ := by
  rw [floorDiv?, if_neg h, floor_eq_lowered h]
  split
  · exact ⟨_, rfl, toInt_div_sub_one h ‹_›⟩
  · exact ⟨_, rfl, rfl⟩

/-- With a divisor, floor division gives the rational quotient rounded down, if it is a
    word. -/
theorem floorDiv?_eq (hb : b ≠ 0) :
    floorDiv? a b = narrow? ⌊(a.toInt / b.toInt : ℚ)⌋ := by
  by_cases h : b = 0 ∨ (a = Int64.minValue ∧ b = -1)
  · rcases h.resolve_left hb with ⟨rfl, rfl⟩
    -- The quotient is one more than the greatest word.
    rw [floor_div_eq_fdiv]
    rfl
  · rcases exists_floorDiv? h with ⟨r, hr, hfloor⟩
    rw [hr, eq_comm, narrow?_eq_some_iff, hfloor]

/-- No step of a division behind the quotient is without a result, and the results are those
    of the words. -/
theorem floorDivSteps_eq (a b : Int64) : floorDivSteps a b = some (floorDiv? a b) := by
  unfold floorDivSteps remainder? floorDiv?
  rw [quotient?_eq]
  by_cases h : b = 0 ∨ (a = Int64.minValue ∧ b = -1)
  · rw [if_pos h, if_pos h]
  · have hremainder : narrow? (a.toInt.tmod b.toInt) = some (a % b) :=
      narrow?_eq_some_iff.mpr (Int64.toInt_mod a b)
    simp only [if_neg h, Option.bind_some, hremainder, bind]
    by_cases hlower : a % b ≠ 0 ∧ (a < 0) ≠ (b < 0)
    · rw [if_pos hlower, if_pos hlower,
        narrow?_eq_some_iff.mpr (toInt_div_sub_one h hlower), Option.bind_some]
    · rw [if_neg hlower, if_neg hlower]

end Words

section Operators

variable {op op' : Operator} {a b r : Int64}

/-- An operator narrows its exact result, unless it divides by zero. -/
theorem onIntegers_eq (op : Operator) (a b : Int64) : op.onIntegers a b =
    if op = .div ∧ b = 0 then .error .divisionByZero
    else fitting op (narrow? (op.exact a.toInt b.toInt)) := by
  by_cases hzero : op = .div ∧ b = 0
  · rcases hzero with ⟨rfl, rfl⟩
    rfl
  · rw [if_neg hzero]
    cases op with
    | add => rfl
    | sub => rfl
    | mul => rfl
    | div =>
        have hb : b ≠ 0 := fun hb => hzero ⟨rfl, hb⟩
        rw [Operator.onIntegers, if_neg hb, floorDiv?_eq hb]
        rfl

/-- The only quotient of two words that is no word is that of the least one and minus one. -/
theorem not_fitsWord_div_iff (hb : b ≠ 0) :
    ¬ FitsWord (Operator.exact .div a.toInt b.toInt) ↔ a.toInt = -2 ^ 63 ∧ b.toInt = -1 := by
  have hleast : a.toInt = -2 ^ 63 ∧ b.toInt = -1 ↔ a = Int64.minValue ∧ b = -1 := by
    rw [← Int64.toInt_inj, ← Int64.toInt_inj]
    rfl
  rw [hleast, Operator.exact, ← narrow?_eq_none_iff, ← floorDiv?_eq hb, floorDiv?]
  by_cases h : b = 0 ∨ (a = Int64.minValue ∧ b = -1)
  · rw [if_pos h]
    exact iff_of_true rfl (h.resolve_left hb)
  · rw [if_neg h]
    refine iff_of_false ?_ fun hmin => h (.inr hmin)
    split <;> exact nofun

/-- A result is exact, and there is none only for a division by zero or where the exact
    result is no word. -/
theorem onIntegers_eq_ok_iff : op.onIntegers a b = .ok r ↔
    ¬ (op = .div ∧ b = 0) ∧ r.toInt = op.exact a.toInt b.toInt := by
  rw [onIntegers_eq, ← narrow?_eq_some_iff]
  split
  · exact ⟨nofun, fun h => absurd ‹_› h.1⟩
  · rw [and_iff_right ‹_›]
    cases narrow? (op.exact a.toInt b.toInt) with
    | none => exact ⟨nofun, nofun⟩
    | some n => rw [fitting, Except.ok.injEq, Option.some.injEq]

theorem onIntegers_eq_divisionByZero_iff :
    op.onIntegers a b = .error .divisionByZero ↔ op = .div ∧ b = 0 := by
  rw [onIntegers_eq]
  split
  · exact iff_of_true rfl ‹_›
  · refine iff_of_false ?_ ‹_›
    cases narrow? (op.exact a.toInt b.toInt) with
    | none => exact nofun
    | some n => exact nofun

/-- An overflow is that of the operator itself, and its exact result is no word. -/
theorem onIntegers_eq_overflow_iff : op.onIntegers a b = .error (.overflow op') ↔
    op' = op ∧ ¬ (op = .div ∧ b = 0) ∧ ¬ FitsWord (op.exact a.toInt b.toInt) := by
  rw [onIntegers_eq, ← narrow?_eq_none_iff]
  split
  · exact ⟨nofun, fun h => absurd ‹_› h.2.1⟩
  · rw [and_iff_right (a := ¬ _) ‹_›]
    cases narrow? (op.exact a.toInt b.toInt) with
    | none =>
        rw [fitting, Except.error.injEq, ArithmeticError.overflow.injEq, eq_comm]
        exact (and_iff_left rfl).symm
    | some n => exact ⟨nofun, fun h => nomatch h.2⟩

end Operators

/-- An operator on words has a result where it does not divide by zero and the exact result
    is a word, and this is the exact result: the sum, the difference, the product, or the
    rational quotient rounded down. It fails with a division by zero where it divides by zero,
    and with its own overflow everywhere else, which for division is at one pair of words
    alone. No step of a division wraps around or divides by zero. -/
theorem onIntegers_exact (op : Operator) (a b : Int64) :
    (∀ r, op.onIntegers a b = .ok r ↔
      ¬ (op = .div ∧ b = 0) ∧ r.toInt = op.exact a.toInt b.toInt) ∧
    ((∃ r, op.onIntegers a b = .ok r) ↔
      ¬ (op = .div ∧ b = 0) ∧ FitsWord (op.exact a.toInt b.toInt)) ∧
    (op.onIntegers a b = .error .divisionByZero ↔ op = .div ∧ b = 0) ∧
    (∀ op', op.onIntegers a b = .error (.overflow op') ↔
      op' = op ∧ ¬ (op = .div ∧ b = 0) ∧ ¬ FitsWord (op.exact a.toInt b.toInt)) ∧
    (op.onIntegers a b = .error (.overflow .div) ↔
      op = .div ∧ a.toInt = -2 ^ 63 ∧ b.toInt = -1) ∧
    floorDivSteps a b = some (floorDiv? a b) := by
  refine ⟨fun r => onIntegers_eq_ok_iff, ?_, onIntegers_eq_divisionByZero_iff,
    fun op' => onIntegers_eq_overflow_iff, ?_, floorDivSteps_eq a b⟩
  · simp only [onIntegers_eq_ok_iff, exists_and_left, fitsWord_iff]
  · rw [onIntegers_eq_overflow_iff]
    constructor
    · rintro ⟨rfl, hzero, hfits⟩
      exact ⟨rfl, (not_fitsWord_div_iff fun hb => hzero ⟨rfl, hb⟩).mp hfits⟩
    · rintro ⟨rfl, hleast⟩
      -- The divisor is minus one, so it is not zero.
      have hb : b ≠ 0 := by
        rintro rfl
        exact nomatch hleast.2
      exact ⟨rfl, fun h => hb h.2, (not_fitsWord_div_iff hb).mpr hleast⟩

end Stencil
