import FlowEvents.Decimal.Numeral
import FlowEvents.Identity.Fault
import FlowEvents.Identity.Hashing
import FlowEvents.Text.Split

/-! # Hosted ids

A `HostId` is a number that is unique on the host that issued it, together with that host's name.
Number zero is reserved for an id that has not been assigned yet.

The text of an assigned id is `<host>-<number>`; every unassigned id, whatever its host, is written
`na`.  Reading cuts at the *last* dash, so a host may hold dashes itself.
-/

namespace FlowEvents

/-- A number that is unique within the host that issued it. -/
@[ext]
structure HostId where
  host : String
  /-- Zero means unassigned. -/
  number : UInt64
  deriving DecidableEq, Hashable, Repr

namespace HostId

instance : Inhabited HostId := ⟨⟨"", 0⟩⟩

def unassigned (host : String) : HostId := ⟨host, 0⟩

/-- How every unassigned id is written. -/
def unassignedText : String := "na"

def isAssigned (h : HostId) : Bool := h.number != 0

def text (h : HostId) : String :=
  if h.isAssigned then h.host ++ "-" ++ Nat.repr h.number.toNat else unassignedText

def feed {σ : Type} (hasher : Hasher σ) (h : HostId) (acc : σ) : σ :=
  hasher.word64 h.number (hasher.text h.host acc)

/-- Reads a number of an id: a numeral below `2 ^ 64`. -/
def readNumber? (cs : List Char) : Option Nat :=
  (Decimal.Numeral.read? cs).filter (· < 2 ^ 64)

/-- Reads a text form.  The text of an unassigned id gives the default id; a written-out zero is
refused, because no assigned id has it. -/
def parse (s : String) : Except IdFault HostId :=
  if s = unassignedText then
    .ok default
  else
    match Text.splitLast '-' s.toList with
    | none => .error (.malformed s)
    | some (host, number) =>
      if host.isEmpty then
        .error (.emptyHost s)
      else
        match readNumber? number with
        | none => .error (.badNumber s)
        | some 0 => .error (.unassigned (String.ofList host))
        | some n => .ok ⟨String.ofList host, UInt64.ofNat n⟩

@[simp]
theorem isAssigned_unassigned (host : String) : (unassigned host).isAssigned = false := rfl

theorem text_of_unassigned {h : HostId} (ha : h.isAssigned = false) :
    h.text = unassignedText := by
  simp [text, ha]

theorem text_of_assigned {h : HostId} (ha : h.isAssigned = true) :
    h.text = h.host ++ "-" ++ Nat.repr h.number.toNat := by
  simp [text, ha]

end HostId

end FlowEvents
