import FlowEvents.Decimal.Binary64
import FlowEvents.Decimal.Literal

/-! # Reading a literal as a floating-point number

A literal is read as the floating-point number nearest to it.  Only so many of its digits are
weighed one by one; whatever digits are left over are *jammed* into a single digit one behind the
others.  A point halfway between two neighbouring numbers has no more digits than are weighed, so a
jammed tail can matter only to a literal that starts with the digits of such a point: it then lies
above the point and is rounded up.

Zeros at the end of the fraction do not count as digits.  Zeros at the end of the whole part do: a
literal that spells a halfway point with a long row of them is rounded up as well.
-/

namespace FlowEvents.Decimal

def weighedDigits : Nat := 768

/-- The first `weighedDigits` digits, and a single digit one for all that follow. -/
def Scaled.jam (d : Scaled) : Scaled :=
  let surplus := (Nat.toDigits 10 d.coefficient).length - weighedDigits
  if surplus = 0 then d
  else { coefficient := d.coefficient / 10 ^ surplus * 10 + 1, scale := d.scale + surplus - 1 }

namespace Literal

def scaled (l : Literal) : Scaled :=
  { coefficient := l.coefficient, scale := l.scale }

/-- The same without the zeros at the end of the fraction. -/
def trimmed (l : Literal) : Scaled :=
  let fraction := (l.fraction.reverse.dropWhile (· == '0')).reverse
  { coefficient := Nat.ofDigitChars 10 fraction l.whole
    scale := l.exponent.getD 0 - fraction.length }

/-- The decimal that is weighed when a literal is read: the literal itself unless it is too long. -/
def weighed (l : Literal) : Scaled :=
  if l.coefficient < 10 ^ weighedDigits then l.scaled else l.trimmed.jam

theorem weighed_of_lt {l : Literal} (h : l.coefficient < 10 ^ weighedDigits) :
    l.weighed = l.scaled :=
  if_pos h

/-- The floating-point number that a literal is read as; `none` where it would be infinite. -/
def toBinary64? (l : Literal) : Option Binary64 :=
  Binary64.ofDecimal l.negative l.weighed.coefficient l.weighed.scale

end Literal

end FlowEvents.Decimal
