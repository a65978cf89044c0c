/-! # Number literals

A `Literal` is a decimal number as it is written: sign, whole part, digits after the point, and a
power of ten.  It keeps what a reader of the text can tell apart (`1`, `1.0`, `1.00` and `1e0` are
four literals) and nothing else: `text` writes a literal in one canonical way and `read?` reads
every way of writing it.

A literal without its sign writes a `Scaled` decimal.

The grammar: an optional minus; a whole part without superfluous leading zeros; optionally a point
and at least one digit; optionally an exponent mark, a sign, and at least one digit.
-/

namespace FlowEvents.Decimal

/-- A decimal without a sign: `coefficient * 10 ^ scale`. -/
structure Scaled where
  coefficient : Nat
  scale : Int
  deriving DecidableEq, Repr

theorem isDigit_nil : ∀ c ∈ ([] : List Char), c.isDigit = true := by simp

/-- A decimal number as written. -/
structure Literal where
  negative : Bool
  /-- The digits before the point, which have no superfluous zero in front. -/
  whole : Nat
  /-- The digits after the point; none where there is no point. -/
  fraction : List Char
  exponent : Option Int
  isDigit_fraction : ∀ c ∈ fraction, c.isDigit = true
  deriving DecidableEq, Repr

namespace Literal

def ofInt (n : Int) : Literal :=
  { negative := n < 0
    whole := n.natAbs
    fraction := []
    exponent := none
    isDigit_fraction := isDigit_nil }

/-- The number without sign and point: all written digits as one natural number. -/
def coefficient (l : Literal) : Nat :=
  Nat.ofDigitChars 10 l.fraction l.whole

/-- The power of ten that `coefficient` is to be multiplied with. -/
def scale (l : Literal) : Int :=
  l.exponent.getD 0 - l.fraction.length

/-- The integer that the literal stands for.  A point, an exponent or a negative zero is no
spelling of an integer, whatever the value. -/
def integer? (l : Literal) : Option Int :=
  if l.fraction ≠ [] ∨ l.exponent ≠ none ∨ (l.negative ∧ l.whole = 0) then none
  else some (if l.negative then -l.whole else l.whole)

/-! ## Writing -/

def exponentText : Option Int → List Char
  | none => []
  | some e => 'e' :: (if e < 0 then '-' else '+') :: Nat.toDigits 10 e.natAbs

def text (l : Literal) : List Char :=
  (if l.negative then ['-'] else []) ++ Nat.toDigits 10 l.whole ++
    (if l.fraction = [] then [] else '.' :: l.fraction) ++ exponentText l.exponent

/-! ## Reading

Each part of the grammar is read off the front of a text; `none` means that the text breaks the
grammar there, and an absent optional part is read as `none` inside the answer. -/

/-- The whole part: a lone zero, or digits that do not start with one. -/
def readWhole? (cs : List Char) : Option (Nat × List Char) :=
  let digits := cs.takeWhile Char.isDigit
  if digits = [] ∨ (digits.head? = some '0' ∧ 1 < digits.length) then none
  else some (Nat.ofDigitChars 10 digits 0, cs.dropWhile Char.isDigit)

def digitRun (cs : List Char) : { ds : List Char // ∀ c ∈ ds, c.isDigit = true } :=
  ⟨cs.takeWhile Char.isDigit, by
    intro c hc
    have := List.all_takeWhile (p := Char.isDigit) (l := cs)
    exact List.all_eq_true.mp this c hc⟩

def readFraction? :
    List Char → Option ({ ds : List Char // ∀ c ∈ ds, c.isDigit = true } × List Char)
  | '.' :: cs =>
    let digits := digitRun cs
    if digits.val = [] then none else some (digits, cs.dropWhile Char.isDigit)
  | cs => some (⟨[], by simp⟩, cs)

def readPower? (cs : List Char) : Option (Int × List Char) :=
  let (negative, cs) :=
    match cs with
    | '-' :: cs => (true, cs)
    | '+' :: cs => (false, cs)
    | cs => (false, cs)
  let digits := cs.takeWhile Char.isDigit
  if digits = [] then none
  else
    let power : Int := Nat.ofDigitChars 10 digits 0
    some (if negative then -power else power, cs.dropWhile Char.isDigit)

def readExponent? : List Char → Option (Option Int × List Char)
  | 'e' :: cs => (readPower? cs).map fun p => (some p.1, p.2)
  | 'E' :: cs => (readPower? cs).map fun p => (some p.1, p.2)
  | cs => some (none, cs)

def readUnsigned? (negative : Bool) (cs : List Char) : Option (Literal × List Char) := do
  let (whole, cs) ← readWhole? cs
  let (fraction, cs) ← readFraction? cs
  let (exponent, cs) ← readExponent? cs
  return (⟨negative, whole, fraction.val, exponent, fraction.property⟩, cs)

def read? : List Char → Option (Literal × List Char)
  | '-' :: cs => readUnsigned? true cs
  | cs => readUnsigned? false cs

end Literal

end FlowEvents.Decimal
