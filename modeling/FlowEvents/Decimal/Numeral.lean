/-! # Decimal numerals

An unsigned numeral is one or more ASCII digits; leading zeros are allowed and the value has no
bound.  `read?` also takes one leading plus sign.
-/

namespace FlowEvents.Decimal.Numeral

def unsigned? (cs : List Char) : Option Nat :=
  if cs ≠ [] ∧ cs.all Char.isDigit then some (Nat.ofDigitChars 10 cs 0) else none

/-- The value of an unsigned numeral with at most one leading plus sign. -/
def read? : List Char → Option Nat
  | '+' :: cs => unsigned? cs
  | cs => unsigned? cs

/-! ## Writing and reading a natural number -/

theorem unsigned?_toDigits (n : Nat) : unsigned? (Nat.toDigits 10 n) = some n := by
  have hd : ∀ c ∈ Nat.toDigits 10 n, c.isDigit = true :=
    fun c hc => Nat.isDigit_of_mem_toDigits (by decide) (by decide) hc
  have hne : Nat.toDigits 10 n ≠ [] := Nat.toDigits_ne_nil
  simp [unsigned?, hne, List.all_eq_true.mpr hd, Nat.ofDigitChars_ten_toDigits]

theorem read?_toDigits (n : Nat) : read? (Nat.toDigits 10 n) = some n := by
  rw [← unsigned?_toDigits n]
  unfold read?
  split
  next cs h =>
    have : ('+' : Char).isDigit = true :=
      Nat.isDigit_of_mem_toDigits (by decide) (by decide) (h ▸ List.mem_cons_self)
    exact absurd this (by decide)
  next => rfl

end FlowEvents.Decimal.Numeral
