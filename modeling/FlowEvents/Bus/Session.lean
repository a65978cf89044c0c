import FlowEvents.Bus.State

/-! # Sessions

A `Session` drives a bus turn by turn.  In a turn some callers go through their acts, and the
state advances until every task is over, waits for ever, or is held back: the notifications of a
*held* slot do not begin until the slot is released.  The tasks run in the order of their creation,
each as far as it gets; so a session is one execution among those of `State.run`.

After a turn a `Report` tells what it brought: the lines written, and what each observer recorded.
-/

namespace FlowEvents.Bus

open Log (Line)

structure Record where
  number : Nat
  place : Place
  event : Event

/-- What a turn brought, in the order of writing. -/
structure Report where
  lines : List Line
  /-- What the observer of each slot recorded, by number. -/
  records : List (List Record)

namespace State

/-- True if nothing is to be expected of a task: it is over, waits for ever, or is held back. -/
def isAtRest (held : List Nat) (t : Task) : Bool :=
  match t.control, t.role with
  | .finished, _ => true
  | .pending, _ => true
  | .waiting, .delivery notice => held.contains notice.slot
  | _, _ => false

/-- Runs the tasks from index `i` on, each until it rests, for at most `fuel` steps. -/
def settleFrom (held : List Nat) : (fuel i : Nat) → State → State
  | 0, _, s => s
  | fuel + 1, i, s =>
    match s.tasks[i]? with
    | none => s
    | some t =>
      if isAtRest held t then settleFrom held fuel (i + 1) s
      else settleFrom held fuel i (s.step i)

/-- Settling is an execution: it comes of some schedule. -/
theorem settleFrom_eq_run (held : List Nat) (fuel i : Nat) (s : State) :
    ∃ schedule, s.settleFrom held fuel i = s.run schedule := by
  induction fuel generalizing i s with
  | zero => exact ⟨[], rfl⟩
  | succ fuel ih =>
    unfold settleFrom
    split
    next => exact ⟨[], rfl⟩
    next t _ =>
      split
      next => exact ih (i + 1) s
      next =>
        obtain ⟨schedule, h⟩ := ih i (s.step i)
        exact ⟨i :: schedule, h⟩

def recordOf? (s : State) (slot : Nat) : Entry → Option Record
  | .kept task e => do
    let t ← s.tasks[task]?
    match t.role with
    | .caller => none
    | .delivery notice =>
      if notice.slot = slot then some ⟨notice.publication.number, t.place, e⟩ else none
  | _ => none

def since {α : Type} (past : Nat) (xs : Array α) : List α :=
  (xs.extract past xs.size).toList

def reportSince (s past : State) : Report :=
  let entries := since past.journal.size s.journal
  { lines := (since past.log.size s.log).map (·.line)
    records := (List.range s.observers.length).map fun slot =>
      (entries.filterMap (s.recordOf? slot)).mergeSort fun a b => a.number ≤ b.number }

end State

structure Session where
  state : State
  held : List Nat

namespace Session

def new (config : Config) (home : Place) : Session :=
  ⟨State.new config home, []⟩

/-- How many steps a turn may take.  A reaction may publish what it reacts to, so no bound follows
from the acts of the callers. -/
def patience : Nat := 10000000

/-- One turn: the callers go through their acts, and everything that follows runs until it rests. -/
def turn (s : Session) (callers : List (Place × List Act)) : Report × Session :=
  let rested := (s.state.addCallers callers).settleFrom s.held patience 0
  (rested.reportSince s.state, { s with state := rested })

/-- Holds back the slot that the next registration takes. -/
def holdNext (s : Session) : Session :=
  { s with held := s.state.observers.length :: s.held }

def release (s : Session) (slot : Nat) : Session :=
  { s with held := s.held.filter (· != slot) }

end Session

end FlowEvents.Bus
