import FlowEvents.Proofs.Decimal.ReadBack
import Mathlib.Algebra.Order.Field.Rat
import Mathlib.Order.WithBot
import Mathlib.Tactic.Positivity

/-! # What a word stands for

Words are equal by their bits, and numbers by what they are.  The two differ in the zeros, for which
there are two words, and in the non-numbers, which are no number at all.
-/

namespace FlowEvents.Decimal.Binary64

/-- A finite number in units of `2 ^ -1074`. -/
def signedUnits (x : Binary64) : ℤ :=
  if x.isNegative then -units x.magnitude else units x.magnitude

/-- What a word may stand for. -/
inductive Extended where
  | finite (q : ℚ)
  | infinite (negative : Bool)

/-- What a word stands for; a non-number stands for nothing. -/
def value? (x : Binary64) : Option Extended :=
  if x.isNaN then none
  else if x.isFinite then some (.finite (x.signedUnits * 2 ^ (-1074 : ℤ)))
  else some (.infinite x.isNegative)

/-! ## Finite numbers -/

theorem units_injective : Function.Injective units := by
  intro a b h
  have hspacing : spacing a = spacing b := by rw [← log2_units, h, log2_units]
  have hsignificand : significand a = significand b := by
    unfold units at h
    rw [hspacing] at h
    exact Nat.mul_right_cancel (Nat.two_pow_pos _) h
  rw [← spacing_add_significand a, hspacing, hsignificand, spacing_add_significand]

theorem eq_iff {x y : Binary64} :
    x = y ↔ x.isNegative = y.isNegative ∧ x.magnitude = y.magnitude := by
  constructor
  · rintro rfl
    exact ⟨rfl, rfl⟩
  · rintro ⟨hsign, hmag⟩
    rw [← ofMagnitude_magnitude x, hsign, hmag, ofMagnitude_magnitude]

/-- Two words stand for one number of units if they are the same, or both zeros. -/
theorem signedUnits_eq_iff {x y : Binary64} :
    x.signedUnits = y.signedUnits ↔ x = y ∨ (x.magnitude = 0 ∧ y.magnitude = 0) := by
  have hsame := units_injective.eq_iff (a := x.magnitude) (b := y.magnitude)
  have hx := units_injective.eq_iff (a := x.magnitude) (b := 0)
  have hy := units_injective.eq_iff (a := y.magnitude) (b := 0)
  have hzero : units 0 = 0 := by decide
  rw [eq_iff, ← hsame, ← hx, ← hy, hzero]
  unfold signedUnits
  generalize units x.magnitude = m, units y.magnitude = n
  cases x.isNegative <;> cases y.isNegative <;> simp <;> omega

/-! ## All numbers -/

/-- A word is a non-number, a finite number or an infinity. -/
theorem kinds (x : Binary64) :
    (x.isNaN = true ∧ x.value? = none) ∨
      (x.isNaN = false ∧ x.magnitude < infinity ∧
        x.value? = some (.finite (x.signedUnits * 2 ^ (-1074 : ℤ)))) ∨
      (x.isNaN = false ∧ x.magnitude = infinity ∧ x.value? = some (.infinite x.isNegative)) := by
  unfold value? isFinite
  cases hnan : x.isNaN with
  | true => exact .inl ⟨rfl, rfl⟩
  | false =>
      unfold isNaN at hnan
      rw [decide_eq_false_iff_not] at hnan
      by_cases h : x.magnitude < infinity
      · exact .inr (.inl ⟨rfl, h, by rw [decide_eq_true h]; rfl⟩)
      · exact .inr (.inr ⟨rfl, by omega, by rw [decide_eq_false h]; rfl⟩)

theorem equals_iff_word {x y : Binary64} : x.equals y = true ↔
    x.isNaN = false ∧ y.isNaN = false ∧ (x = y ∨ (x.magnitude = 0 ∧ y.magnitude = 0)) := by
  simp [equals, isZero, and_assoc]

/-- **Numeric equality.** Two words are equal if and only if they stand for the same number. -/
theorem equals_iff {x y : Binary64} :
    x.equals y = true ↔ ∃ r, x.value? = some r ∧ y.value? = some r := by
  have hunit : (2 : ℚ) ^ (-1074 : ℤ) ≠ 0 := zpow_ne_zero _ two_ne_zero
  have hinfinity : infinity ≠ 0 := by decide
  rw [equals_iff_word]
  rcases x.kinds with ⟨hx, hvx⟩ | ⟨hx, hmx, hvx⟩ | ⟨hx, hmx, hvx⟩
  · simp [hx, hvx]
  · rcases y.kinds with ⟨hy, hvy⟩ | ⟨hy, hmy, hvy⟩ | ⟨hy, hmy, hvy⟩
    · simp [hy, hvy]
    · -- finite numbers are told apart by their units
      rw [hvx, hvy, ← signedUnits_eq_iff]
      generalize (2 : ℚ) ^ (-1074 : ℤ) = unit at hunit ⊢
      simp [hx, hy, hunit, eq_comm]
    · rw [hvx, hvy]
      refine iff_of_false ?_ (by simp)
      rintro ⟨-, -, rfl | ⟨-, hzero⟩⟩ <;> omega
  · rcases y.kinds with ⟨hy, hvy⟩ | ⟨hy, hmy, hvy⟩ | ⟨hy, hmy, hvy⟩
    · simp [hy, hvy]
    · rw [hvx, hvy]
      refine iff_of_false ?_ (by simp)
      rintro ⟨-, -, rfl | ⟨hzero, -⟩⟩ <;> omega
    · rw [hvx, hvy, eq_iff, hmx, hmy]
      simp [hx, hy, hinfinity, eq_comm]

theorem equals_self_iff {x : Binary64} : x.equals x = true ↔ x.isNaN = false := by
  simp [equals_iff_word]

/-- The two zeros are equal; a non-number is not equal to itself. -/
example : equals ⟨0⟩ ⟨0x8000000000000000⟩ = true ∧
    equals ⟨0x7ff8000000000000⟩ ⟨0x7ff8000000000000⟩ = false := by
  decide

end FlowEvents.Decimal.Binary64
