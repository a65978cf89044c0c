import FlowEvents.Decimal.Shortest
import FlowEvents.Json.Basic
import FlowEvents.Text.Quoted

/-! # Why a text was not read

Reading a text as one of the domain's types can fail in two ways.  The text may *break*: it is no
JSON, or it is JSON that nobody could read on from, such as half of a surrogate pair, a number
beyond the floating-point ones or too deep a nesting.  Or it is *unsuited*: what stands there is
understood, but it is not what was expected.

Each fault has its message, which leaves out where in the text it was met.  Only of a text that is
no JSON no message is kept; nothing is said here about how such texts are told apart.  The message
of an unsuited text names what was found by its kind and, where that is short, by its value.
-/

namespace FlowEvents.Wire

open Decimal (Binary64 Literal)

/-! ## Numbers -/

/-- A literal as the number that it is read as. -/
inductive Number where
  /-- An integer within the range of the signed or of the unsigned words of 64 bits. -/
  | integer (n : Int)
  | float (x : Binary64)
  deriving DecidableEq, Repr

/-- The number that a literal is read as; `none` beyond the finite floating-point numbers. -/
def Number.ofLiteral? (l : Literal) : Option Number :=
  let float := l.toBinary64?.map Number.float
  match l.integer? with
  | some n => if -2 ^ 63 ≤ n ∧ n < 2 ^ 64 then some (.integer n) else float
  | none => float

/-- A floating-point number is shown as it is written. -/
def Number.describe : Number → String
  | integer n => "integer `" ++ String.ofList (Literal.ofInt n).text ++ "`"
  | float x =>
    "floating point `" ++ String.ofList ((x.literal?.map Literal.text).getD []) ++ "`"

/-! ## What was found and what was expected -/

/-- What stands in a text, as far as a message tells. -/
inductive Found where
  | null
  | bool (b : Bool)
  | number (n : Number)
  | string (s : String)
  | sequence
  | map
  deriving DecidableEq, Repr

def Found.describe : Found → String
  | null => "null"
  | bool b => "boolean `" ++ (if b then "true" else "false") ++ "`"
  | number n => n.describe
  | string s => "string " ++ Text.quoted s
  | sequence => "sequence"
  | map => "map"

inductive Expected where
  | record (title : String)
  | string
  | bool
  | word (width : Nat)
  | map
  | unit
  deriving DecidableEq, Repr

def Expected.describe : Expected → String
  | record title => "struct " ++ title
  | string => "a string"
  | bool => "a boolean"
  | word width => "u" ++ Nat.repr width
  | map => "a map"
  | unit => "unit"

/-! ## Faults -/

/-- How a text breaks. -/
inductive Break where
  | flawed (flaw : Json.Flaw)
  /-- What stands there is not of the shape in which alternatives are written. -/
  | noAlternative
  /-- The text goes on behind the last value that anybody reads. -/
  | trailing
  | beyondRange
  | tooDeep
  deriving DecidableEq, Repr

def Break.message? : Break → Option String
  | flawed .malformed => none
  | flawed .loneHalf => some "lone leading surrogate in hex escape"
  | flawed .openHalf => some "unexpected end of hex escape"
  | noAlternative => some "expected value"
  | trailing => some "trailing characters"
  | beyondRange => some "number out of range"
  | tooDeep => some "recursion limit exceeded"

/-- In what way a text is unsuited. -/
inductive Cause where
  | wrongKind (found : Found) (expected : Expected)
  | outOfRange (n : Int) (expected : Expected)
  /-- An array of fewer items than the record has fields. -/
  | tooShort (present : Nat) (title : String) (fields : Nat)
  | duplicateField (name : String)
  | missingField (name : String)
  | unknownAlternative (name : String) (allowed : List String)
  deriving DecidableEq, Repr

def Cause.message : Cause → String
  | wrongKind found expected =>
    "invalid type: " ++ found.describe ++ ", expected " ++ expected.describe
  | outOfRange n expected =>
    "invalid value: " ++ (Number.integer n).describe ++ ", expected " ++ expected.describe
  | tooShort present title fields =>
    "invalid length " ++ Nat.repr present ++ ", expected struct " ++ title ++ " with " ++
      Nat.repr fields ++ " elements"
  | duplicateField name => "duplicate field `" ++ name ++ "`"
  | missingField name => "missing field `" ++ name ++ "`"
  | unknownAlternative name allowed =>
    "unknown variant `" ++ name ++ "`, expected one of " ++
      ", ".intercalate (allowed.map fun a => "`" ++ a ++ "`")

/-- Why a text was not read.  Whoever tells only broken texts from unsuited ones need not ask how a
text breaks. -/
inductive Fault where
  | broken {b : Break}
  | unsuited (cause : Cause)
  deriving DecidableEq, Repr

/-- The message; `none` for a text that is no JSON. -/
def Fault.message? : Fault → Option String
  | broken (b := b) => b.message?
  | unsuited cause => some cause.message

/-! ## Outcomes -/

abbrev Outcome (α : Type) := Except Fault α

section Outcome

variable {α β : Type} {outcome : Outcome α} {b : β}

theorem bind_eq_ok_iff {f : α → Outcome β} :
    (outcome >>= f) = .ok b ↔ ∃ a, outcome = .ok a ∧ f a = .ok b := by
  cases outcome with
  | error fault => simp [bind, Except.bind]
  | ok a => simp [bind, Except.bind]

/-- Of two steps the first that fails is told. -/
theorem bind_eq_error_iff {f : α → Outcome β} {fault : Fault} :
    (outcome >>= f) = .error fault ↔
      outcome = .error fault ∨ ∃ a, outcome = .ok a ∧ f a = .error fault := by
  cases outcome with
  | error fault' => simp [bind, Except.bind]
  | ok a => simp [bind, Except.bind]

theorem map_eq_ok_iff {f : α → β} :
    outcome.map f = .ok b ↔ ∃ a, outcome = .ok a ∧ f a = b := by
  cases outcome <;> simp [Except.map]

theorem map_eq_error_iff {f : α → β} {fault : Fault} :
    outcome.map f = .error fault ↔ outcome = .error fault := by
  cases outcome <;> simp [Except.map]

end Outcome

/-- What a number is read as, if it is within the range. -/
def ranged {α : Type} : Option α → Outcome α
  | some x => .ok x
  | none => .error (.broken (b := .beyondRange))

theorem ranged_eq_ok_iff {α : Type} {x? : Option α} {x : α} :
    ranged x? = .ok x ↔ x? = some x := by
  cases x? <;> simp [ranged]

def readName : Json.Name → Outcome String
  | .plain s => .ok s
  | .flawed flaw => .error (.broken (b := .flawed flaw))

theorem readName_eq_ok_iff {name : Json.Name} {s : String} :
    readName name = .ok s ↔ name = .plain s := by
  cases name <;> simp [readName]

/-- What a message tells of a value, unless the text breaks in the attempt to tell.  Of arrays and
objects nothing but their start is looked at. -/
def Found.ofJson : Json → Outcome Found
  | .null => .ok .null
  | .bool b => .ok (.bool b)
  | .num l => ranged ((Number.ofLiteral? l).map .number)
  | .str s => .ok (.string s)
  | .arr _ => .ok .sequence
  | .obj _ => .ok .map
  | .flawed flaw => .error (.broken (b := .flawed flaw))

def wrongKind {α : Type} (expected : Expected) (j : Json) : Outcome α := do
  let found ← Found.ofJson j
  .error (.unsuited (.wrongKind found expected))

/-- The fault of a text that should have ended, or gone on otherwise, in front of a value.  Without
a value there the text is malformed. -/
def surplus (b : Break) : Json → Fault
  | .flawed .malformed => .broken (b := .flawed .malformed)
  | _ => .broken (b := b)

end FlowEvents.Wire
