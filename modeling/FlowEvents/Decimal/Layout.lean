import FlowEvents.Decimal.Literal

/-! # Laying out a decimal as a literal

A decimal `digits * 10 ^ scale` becomes a literal in one of two layouts.  In the *positional* one
the point stands where it belongs, with at least one digit after it; in the *scientific* one it
stands after the first digit, is left out if no digit follows, and an exponent makes up for it.
`Layout` says for which numbers the point stays in place.

Every literal made here has a point or an exponent, so none can be mistaken for an integer.
-/

namespace FlowEvents.Decimal

/-- Where the point stands, counted in digits from the first one; not above zero where zeros follow
the point. -/
def Scaled.point (d : Scaled) : Int :=
  (Nat.toDigits 10 d.coefficient).length + d.scale

/-- Which decimals are written positionally: those whose point stands within these bounds. -/
structure Layout where
  lowest : Int
  highest : Int

namespace Layout

/-- Numbers from `10 ^ -5` up to, and without, `10 ^ 16` keep their point in place. -/
def plain : Layout := ⟨-4, 16⟩

/-- The digits of a number without the zeros at its end. -/
def significant (n : Nat) : List Char :=
  ((Nat.toDigits 10 n).reverse.dropWhile (· == '0')).reverse

theorem isDigit_of_mem_significant {n : Nat} {c : Char} (h : c ∈ significant n) :
    c.isDigit = true := by
  have h' : c ∈ Nat.toDigits 10 n := by
    have := (List.dropWhile_sublist (· == '0')).subset (List.mem_reverse.mp h)
    exact List.mem_reverse.mp this
  exact Nat.isDigit_of_mem_toDigits (by decide) (by decide) h'

/-- The point stands `point` digits from the left; zeros fill what the digits leave open. -/
def positional (negative : Bool) (digits : List Char) (point : Int)
    (h : ∀ c ∈ digits, c.isDigit = true) : Literal :=
  match point with
  | .ofNat places =>
    let before := digits.take places ++ List.replicate (places - digits.length) '0'
    let after := digits.drop places
    { negative := negative
      whole := Nat.ofDigitChars 10 before 0
      fraction := if after = [] then ['0'] else after
      exponent := none
      isDigit_fraction := by
        intro c hc
        split at hc
        · simp at hc
          subst hc
          decide
        · exact h c (List.mem_of_mem_drop hc) }
  | .negSucc zeros =>
    { negative := negative
      whole := 0
      fraction := List.replicate (zeros + 1) '0' ++ digits
      exponent := none
      isDigit_fraction := by
        intro c hc
        rcases List.mem_append.mp hc with hc | hc
        · rw [List.eq_of_mem_replicate hc]
          decide
        · exact h c hc }

/-- The point stands after the first digit. -/
def scientific (negative : Bool) (digits : List Char) (point : Int)
    (h : ∀ c ∈ digits, c.isDigit = true) : Literal :=
  { negative := negative
    whole := Nat.ofDigitChars 10 (digits.take 1) 0
    fraction := digits.drop 1
    exponent := some (point - 1)
    isDigit_fraction := fun c hc => h c (List.mem_of_mem_drop hc) }

def literal (layout : Layout) (negative : Bool) (d : Scaled) : Literal :=
  let write :=
    if layout.lowest ≤ d.point ∧ d.point ≤ layout.highest then positional else scientific
  write negative (significant d.coefficient) d.point fun _ => isDigit_of_mem_significant

end Layout

end FlowEvents.Decimal
