import FlowEvents.Wire.Fault

/-! # Reading and writing scalars

Strings, truth values and unsigned words.  A word is read from an integer literal only: a number
with a point or an exponent is of another kind, however whole its value, and an integer outside the
range is refused and never cut down.
-/

namespace FlowEvents.Wire

open Decimal (Literal)

def readString : Json → Outcome String
  | .str s => .ok s
  | j => wrongKind .string j

def readBool : Json → Outcome Bool
  | .bool b => .ok b
  | j => wrongKind .bool j

def readUnit : Json → Outcome Unit
  | .null => .ok ()
  | j => wrongKind .unit j

/-- Reads an unsigned integer below `2 ^ width`. -/
def readNat (width : Nat) (j : Json) : Outcome Nat :=
  match j with
  | .num l =>
    match Number.ofLiteral? l with
    | some (.integer n) =>
      if 0 ≤ n ∧ n < 2 ^ width then .ok n.toNat
      else .error (.unsuited (.outOfRange n (.word width)))
    | _ => wrongKind (.word width) j
  | j => wrongKind (.word width) j

def readUInt32 (j : Json) : Outcome UInt32 :=
  (readNat 32 j).map UInt32.ofNat

def readUInt64 (j : Json) : Outcome UInt64 :=
  (readNat 64 j).map UInt64.ofNat

def writeInt (n : Int) : Json :=
  .num (Literal.ofInt n)

end FlowEvents.Wire
