import FlowEvents.Bus.Task

/-! # Journal and log

What happened around a bus, and in which order, stands in the *journal*, at most one entry a step.
Calls of the bus are told apart by counting them.  The lines that tasks wrote stand in the *log*,
each with its writer; it is apart from the journal because nothing ever depends on it.
-/

namespace FlowEvents.Bus

open Log (Line)

/-- What happened in a step.  A publish is `called`, `numbered`, `listed`, `sent` to one slot after
the other and `returned`; a registration is `enrolling`, `enrolled` and `registered`. -/
inductive Entry where
  | called (call task : Nat) (e : Event)
  | numbered (p : Publication)
  /-- A publish listed the first `count` slots. -/
  | listed (p : Publication) (count : Nat)
  /-- A publish created the notification `task` of a slot. -/
  | sent (p : Publication) (slot task : Nat)
  | returned (p : Publication)
  | enrolling (call task : Nat) (o : Observer)
  | enrolled (call slot : Nat)
  | registered (call slot : Nat)
  | started (task : Nat)
  | kept (task : Nat) (e : Event)
  | ended (task : Nat)

structure Written where
  writer : Nat
  line : Line
  deriving DecidableEq, Repr

def Entry.publication? : Entry → Option Publication
  | .numbered p => some p
  | _ => none

end FlowEvents.Bus
