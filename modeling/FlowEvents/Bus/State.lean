import FlowEvents.Bus.Config
import FlowEvents.Bus.Journal

/-! # The bus and the tasks around it

A `State` is a bus together with every task that uses it.  Tasks run concurrently.  `State.step i`
lets task `i` go one atomic step further, and an execution is what comes of a list of such steps, in
any order.

A publish takes these steps: it is *called*; it draws the next *number*, which becomes the event's
id; it is *traced*, if the settings ask for it; it *lists* the observers registered by then; it
*sends* each of them a copy, which creates a notification; it *returns*.  Between any two of them
other tasks may run.  A registration is called, takes the next *slot*, and returns.
-/

namespace FlowEvents.Bus

open Log (Line)

structure State where
  config : Config
  home : Place
  calls : Nat
  issued : Nat
  /-- The position of an observer is its slot. -/
  observers : List Observer
  /-- Those that are over included. -/
  tasks : Array Task
  journal : Array Entry
  log : Array Written

namespace State

def new (config : Config) (home : Place) : State :=
  ⟨config, home, 0, 0, [], #[], #[], #[]⟩

/-- The last number drawn, as the bus tells it; zero before the first publish. -/
def lastNumber (s : State) : UInt64 :=
  UInt64.ofNat s.issued

def describe (s : State) : String :=
  "Bus \x7b last_id: " ++ Nat.repr s.lastNumber.toNat ++ ", observers: " ++
    Nat.repr s.observers.length ++ ", cfg: " ++ s.config.describe ++ " \x7d"

def spawn (s : State) (t : Task) : State :=
  { s with tasks := s.tasks.push t }

def addCallers (s : State) (callers : List (Place × List Act)) : State :=
  callers.foldl (fun s c => s.spawn (Task.caller c.1 c.2)) s

def setTask (s : State) (i : Nat) (t : Task) : State :=
  { s with tasks := s.tasks.setIfInBounds i t }

def countCall (s : State) : State :=
  { s with calls := s.calls + 1 }

def drawNumber (s : State) : State :=
  { s with issued := s.issued + 1 }

def enrol (s : State) (o : Observer) : State :=
  { s with observers := s.observers ++ [o] }

def note (s : State) (entry : Entry) : State :=
  { s with journal := s.journal.push entry }

def write (s : State) (writer : Nat) (line : Line) : State :=
  { s with log := s.log.push ⟨writer, line⟩ }

/-! ## Steps -/

/-- What a task leaves in the log when it ends.  A panic is told if the observer has a name to tell
it by. -/
def lastLine? (t : Task) : Option Line :=
  match t.role, t.ending with
  | .delivery notice, .panicked text => notice.observer.name.map (Log.panicLine · text)
  | _, _ => none

/-- The end of task `i`, unless it is to wait for ever. -/
def finish (i : Nat) (t : Task) (s : State) : State :=
  if t.ending = .pending then s.setTask i { t with control := .pending }
  else
    let s := (s.setTask i { t with control := .finished }).note (.ended i)
    match lastLine? t with
    | some line => s.write i line
    | none => s

def begin (i : Nat) (t : Task) (s : State) : State :=
  match t.todo with
  | [] => s.finish i t
  | .publish e :: todo =>
    (s.setTask i { t with todo, control := .called s.calls e }).countCall.note
      (.called s.calls i e)
  | .register o :: todo =>
    (s.setTask i { t with todo, control := .enrolling s.calls o }).countCall.note
      (.enrolling s.calls i o)
  | .write line :: todo => (s.setTask i { t with todo }).write i line
  | .keep e :: todo => (s.setTask i { t with todo }).note (.kept i e)

/-- Task `i` goes one atomic step further.  A task that is over, or never to end, stays as it is. -/
def step (i : Nat) (s : State) : State :=
  match s.tasks[i]? with
  | none => s
  | some t =>
    match t.control with
    | .waiting =>
      match t.role with
      | .caller => s.setTask i { t with control := .ready }
      | .delivery notice =>
        let reaction := notice.observer.react notice.publication.event
        let t := { t with control := .ready, todo := reaction.acts, ending := reaction.ending }
        (s.setTask i t).note (.started i)
    | .ready => s.begin i t
    | .called call e =>
      let number := s.issued + 1
      let p : Publication := ⟨call, i, number, { e with id := UInt64.ofNat number }⟩
      (s.drawNumber.setTask i { t with control := .numbered p }).note (.numbered p)
    | .numbered p =>
      let s := s.setTask i { t with control := .traced p }
      if s.config.announces p.event.tag then s.write i p.event.publishLine else s
    | .traced p =>
      let left := s.observers.zipIdx
      (s.setTask i { t with control := .sending p left }).note (.listed p left.length)
    | .sending p [] => (s.setTask i { t with control := .ready }).note (.returned p)
    | .sending p ((o, slot) :: left) =>
      let task := Task.delivery (t.place.forNotice s.home) ⟨p, slot, o⟩
      let s := s.setTask i { t with control := .sending p left }
      (s.spawn task).note (.sent p slot s.tasks.size)
    | .enrolling call o =>
      let slot := s.observers.length
      ((s.enrol o).setTask i { t with control := .enrolled call slot }).note (.enrolled call slot)
    | .enrolled call slot => (s.setTask i { t with control := .ready }).note (.registered call slot)
    | .pending => s
    | .finished => s

/-- The execution of a schedule: the tasks named, in that order, each go a step further. -/
def run (schedule : List Nat) (s : State) : State :=
  schedule.foldl (fun s i => s.step i) s

@[simp]
theorem run_nil (s : State) : s.run [] = s := rfl

@[simp]
theorem run_cons (i : Nat) (schedule : List Nat) (s : State) :
    s.run (i :: schedule) = (s.step i).run schedule := rfl

theorem run_append (first second : List Nat) (s : State) :
    s.run (first ++ second) = (s.run first).run second := by
  simp [run, List.foldl_append]

/-! ## Reading the journal -/

/-- The publishes that have drawn their number, in the order of drawing. -/
def publications (s : State) : List Publication :=
  s.journal.toList.filterMap Entry.publication?

end State

end FlowEvents.Bus
