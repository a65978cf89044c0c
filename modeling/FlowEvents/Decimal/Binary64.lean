/-! # Binary floating point of 64 bits

A `Binary64` is the word of a double-precision number: a sign bit, eleven bits of exponent and
fifty-two of fraction.  Everything here is exact arithmetic on natural numbers.  The *magnitude* of
a word is the word without its sign; finite magnitudes ascend with the numbers they stand for, and
`units` gives that number as a multiple of `2 ^ -1074`, the smallest positive one.

`ofDecimal` is correctly rounded: the nearest number wins, and of two equally near ones the one
with the even last bit.
-/

-- Powers are core's own, also next to a library that brings another instance of them.
attribute [instance (high), default_instance high + 1] instPowNat

namespace FlowEvents.Decimal

structure Binary64 where
  /-- Sign, exponent and fraction, from the highest bit down. -/
  bits : UInt64
  deriving DecidableEq, Repr

namespace Binary64

/-- The magnitude of the infinities: an exponent of ones and no fraction. -/
def infinity : Nat := 2047 * 2 ^ 52

def ofMagnitude (negative : Bool) (magnitude : Nat) : Binary64 :=
  ⟨UInt64.ofNat (if negative then 2 ^ 63 + magnitude else magnitude)⟩

/-- True of numbers with the sign bit, zero and the non-numbers included. -/
def isNegative (x : Binary64) : Bool :=
  2 ^ 63 ≤ x.bits.toNat

def magnitude (x : Binary64) : Nat :=
  x.bits.toNat % 2 ^ 63

def isFinite (x : Binary64) : Bool :=
  x.magnitude < infinity

def isNaN (x : Binary64) : Bool :=
  infinity < x.magnitude

def isZero (x : Binary64) : Bool :=
  x.magnitude = 0

/-- Numeric equality: a non-number equals nothing, itself included, and the two zeros are equal. -/
def equals (x y : Binary64) : Bool :=
  !x.isNaN && !y.isNaN && (x == y || (x.isZero && y.isZero))

/-- The bits of a finite number, the hidden one included. -/
def significand (magnitude : Nat) : Nat :=
  let fraction := magnitude % 2 ^ 52
  if magnitude / 2 ^ 52 = 0 then fraction else 2 ^ 52 + fraction

/-- The numbers around a finite one are spaced `2 ^ (spacing - 1074)` apart. -/
def spacing (magnitude : Nat) : Nat :=
  magnitude / 2 ^ 52 - 1

/-- A finite magnitude as a multiple of `2 ^ -1074`. -/
def units (magnitude : Nat) : Nat :=
  significand magnitude * 2 ^ spacing magnitude

/-! ## Rounding -/

/-- The integer nearest to `num / den`; halfway between two, the even one. -/
def roundHalfEven (num den : Nat) : Nat :=
  let quotient := num / den
  let rest := num % den
  if 2 * rest < den then quotient
  else if den < 2 * rest then quotient + 1
  else if quotient % 2 = 0 then quotient
  else quotient + 1

/-- The magnitude nearest to `num / den`, without an upper bound.

Counted in units of `2 ^ -1074`, numbers below `2 ^ (53 + s)` are spaced `2 ^ s` apart, where `s`
is as small as the number allows.  The magnitude counts `2 ^ 52` for each step of `s` and adds the
rounded significand; one that rounds up to `2 ^ 53` carries into the next exponent by itself. -/
def nearest (num den : Nat) : Nat :=
  let scaled := num * 2 ^ 1074
  let spacing := (scaled / den).log2 - 52
  spacing * 2 ^ 52 + roundHalfEven scaled (den * 2 ^ spacing)

def ofMagnitude? (negative : Bool) (magnitude : Nat) : Option Binary64 :=
  if magnitude < infinity then some (ofMagnitude negative magnitude) else none

/-- The number nearest to `± coefficient * 10 ^ scale`; `none` where it would be infinite.

As `10` exceeds `2 ^ 3`, a power of ten that alone pushes the value out of range is recognised by
its bits, so the arithmetic stays within a bound set by the coefficient. -/
def ofDecimal (negative : Bool) (coefficient : Nat) (scale : Int) : Option Binary64 :=
  if coefficient = 0 then
    some (ofMagnitude negative 0)
  else
    match scale with
    | .ofNat power =>
      if 1024 ≤ coefficient.log2 + 3 * power then none
      else ofMagnitude? negative (nearest (coefficient * 10 ^ power) 1)
    | .negSucc power =>
      if coefficient.log2 + 1077 ≤ 3 * (power + 1) then some (ofMagnitude negative 0)
      else ofMagnitude? negative (nearest coefficient (10 ^ (power + 1)))

end Binary64

end FlowEvents.Decimal
