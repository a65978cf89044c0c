import Std.Data.HashMap

/-! # Grouping equal identities

Identities serve as keys.  `group` puts a list of them into a hash map and reports, for each item,
the position of the first item that is equal to it, and how many different ones there are.
-/

namespace FlowEvents

/-- What a list of keys looks like once equal keys are put together. -/
structure Grouping where
  /-- For each item the position of the first item equal to it. -/
  firsts : List Nat
  count : Nat
  deriving DecidableEq, Repr

namespace Grouping

variable {α : Type} [BEq α] [Hashable α]

/-- Walks the items from position `i` on, with the first positions of the keys seen so far. -/
def walk (seen : Std.HashMap α Nat) (i : Nat) : List α → List Nat × Std.HashMap α Nat
  | [] => ([], seen)
  | a :: rest =>
    match seen[a]? with
    | some first =>
      let (firsts, seen) := walk seen (i + 1) rest
      (first :: firsts, seen)
    | none =>
      let (firsts, seen) := walk (seen.insert a i) (i + 1) rest
      (i :: firsts, seen)

end Grouping

def group {α : Type} [BEq α] [Hashable α] (items : List α) : Grouping :=
  let (firsts, seen) := Grouping.walk ∅ 0 items
  ⟨firsts, seen.size⟩

end FlowEvents
