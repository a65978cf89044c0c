import FlowEvents.Bus.Observer

/-! # Tasks

A task is a thread of control: a caller from outside going through its acts, or a notification in
which an observer reacts to its copy of an event.  `Control` says how far a task has come; one
atomic step leads from one of its values to the next, and other tasks may run in between.
-/

namespace FlowEvents.Bus

inductive Place where
  | thread
  | runtime (name : String)
  deriving DecidableEq, Repr

/-- Where a notification runs: in the publisher's runtime if it has one, else where the bus was
made. -/
def Place.forNotice (publisher home : Place) : Place :=
  match publisher with
  | .runtime name => .runtime name
  | .thread => home

/-- A publish from the moment it has its number. -/
structure Publication where
  call : Nat
  publisher : Nat
  number : Nat
  event : Event

structure Notice where
  publication : Publication
  slot : Nat
  observer : Observer

/-- Whose acts a task goes through. -/
inductive Role where
  | caller
  | delivery (notice : Notice)

/-- How far a task has come: between two acts it is `ready`, and within one it is somewhere on the
way of a publish or of a registration. -/
inductive Control where
  | waiting
  | ready
  | called (call : Nat) (e : Event)
  | numbered (p : Publication)
  /-- The line of the publish has been written, if it is to be. -/
  | traced (p : Publication)
  /-- The observers have been listed; these are still to be sent a copy. -/
  | sending (p : Publication) (left : List (Observer × Nat))
  | enrolling (call : Nat) (o : Observer)
  | enrolled (call slot : Nat)
  /-- It waits for ever. -/
  | pending
  | finished

structure Task where
  place : Place
  role : Role
  control : Control
  todo : List Act
  ending : Ending

def Task.caller (place : Place) (acts : List Act) : Task :=
  ⟨place, .caller, .ready, acts, .returned⟩

def Task.delivery (place : Place) (notice : Notice) : Task :=
  ⟨place, .delivery notice, .waiting, [], .returned⟩

end FlowEvents.Bus
