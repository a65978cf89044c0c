import FlowEvents.Decimal.Literal

/-! # JSON values

A `Json` value is a text taken apart, as far as it can be: numbers stay literals, members keep
their order and their repetitions, and what cannot be taken apart is *flawed*.

* A `malformed` value stands where the text stops being JSON.  Nothing is known of what follows it,
  so it only ever ends its array, its object or the whole text.
* A string may have escapes that are formed well but name no character, for they write half of a
  surrogate pair.  It can be passed over, not read.

The name of a member is a string, so it can be flawed in the same ways.  A member of which not even
a string stands in the place of the name is malformed in its name and in its value.
-/

namespace FlowEvents

open Decimal (Literal)

/-- Why a text says nothing where a value or a name should be. -/
inductive Json.Flaw where
  | malformed
  /-- Half of a surrogate pair that is not the first, or behind which another unit stands. -/
  | loneHalf
  /-- The first half of a surrogate pair, behind which no unit stands. -/
  | openHalf
  deriving DecidableEq, Repr

inductive Json.Name where
  | plain (s : String)
  | flawed (flaw : Json.Flaw)
  deriving DecidableEq, Repr

inductive Json where
  | null
  | bool (b : Bool)
  | num (n : Literal)
  | str (s : String)
  | arr (items : List Json)
  | obj (members : List (Json.Name × Json))
  | flawed (flaw : Json.Flaw)

namespace Json

def member (name : String) (value : Json) : Name × Json :=
  (.plain name, value)

def ofMembers (members : List (String × Json)) : Json :=
  .obj (members.map fun m => member m.1 m.2)

/-! ## What can be passed over -/

mutual

/-- True if nothing in the value is malformed, so that the text goes on behind it. -/
def isFormed : Json → Bool
  | flawed flaw => flaw != .malformed
  | arr items => areFormed items
  | obj members => membersFormed members
  | _ => true

def areFormed : List Json → Bool
  | [] => true
  | item :: items => isFormed item && areFormed items

def membersFormed : List (Name × Json) → Bool
  | [] => true
  | (name, value) :: members =>
    name != .flawed .malformed && isFormed value && membersFormed members

end

end Json

end FlowEvents
