import FlowEvents.Decimal.Layout
import FlowEvents.Decimal.Reading

/-! # The shortest literal that reads back

A floating-point number is written with the fewest decimal digits that are read back as that very
number; among decimals of that length the nearest is taken, and of two equally near ones the one
with the even last digit.

The search goes through one digit, two digits and so on.  For each count it tries the two
neighbours of the number on the grid of decimals with that many digits, by reading back the literal
that would be written.  Seventeen digits always suffice; the exact decimal expansion stands behind
the search, so what is written reads back whichever way it was found.
-/

namespace FlowEvents.Decimal

namespace Binary64

namespace Shortest

/-- The position of the point in `units * 2 ^ -1074`: the number lies in the interval from
`10 ^ (p - 1)` up to, and without, `10 ^ p`. -/
def pointPosition (units : Nat) : Int :=
  (Nat.toDigits 10 (units * 10 ^ 400 / 2 ^ 1074)).length - 400

/-- The number `units * 2 ^ -1074` as a fraction of `10 ^ scale`. -/
def onGrid (units : Nat) (scale : Int) : Nat × Nat :=
  match scale with
  | .ofNat power => (units, 2 ^ 1074 * 10 ^ power)
  | .negSucc power => (units * 10 ^ (power + 1), 2 ^ 1074)

/-- The literal of a decimal, with the sign of a number, if it is read as that number. -/
def accept? (layout : Layout) (x : Binary64) (d : Scaled) : Option Literal :=
  let l := layout.literal x.isNegative d
  if l.toBinary64? = some x then some l else none

/-- Of the two neighbours of a number on a grid, the one that is accepted; of two, the nearer. -/
def neighbour? (layout : Layout) (x : Binary64) (scale : Int) : Option Literal :=
  let (num, den) := onGrid (units x.magnitude) scale
  match accept? layout x ⟨num / den, scale⟩, accept? layout x ⟨num / den + 1, scale⟩ with
  | some below, some above => some (if roundHalfEven num den = num / den then below else above)
  | some below, none => some below
  | none, above? => above?

/-- The exact expansion as a whole number and an exponent, as `2 ^ -k = 5 ^ k * 10 ^ -k`.  It has
fewer than 768 digits, as the significand is below `2 ^ 53` and the fifth power at most the
1074th. -/
def expansion (x : Binary64) : Literal :=
  let s := spacing x.magnitude
  { negative := x.isNegative
    whole := significand x.magnitude * 2 ^ (s - 1074) * 5 ^ (1074 - s)
    fraction := []
    exponent := some (-(1074 - s : Nat))
    isDigit_fraction := isDigit_nil }

end Shortest

/-- The shortest literal that reads back as a finite number other than zero. -/
def shortest (layout : Layout) (x : Binary64) : Literal :=
  let point := Shortest.pointPosition (units x.magnitude)
  let found := (List.range 17).findSome? fun (n : Nat) =>
    Shortest.neighbour? layout x (point - (n + 1 : Nat))
  found.getD (Shortest.expansion x)

/-- The literal that a number is written as.  The infinities and the non-numbers have none. -/
def literal? (x : Binary64) : Option Literal :=
  if !x.isFinite then none
  else if x.isZero then some (Layout.plain.literal x.isNegative ⟨0, 0⟩)
  else some (x.shortest .plain)

end Binary64

end FlowEvents.Decimal
