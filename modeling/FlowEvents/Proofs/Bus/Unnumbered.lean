import FlowEvents.Proofs.Bus.Execution
import Mathlib.Data.List.Induction

/-! # The ids that producers set

An event comes to a publish with some id in it, which the publish overwrites.  Here the ids that
producers set are blanked out everywhere: in the acts still to come, in the calls that are under
way, in whatever the observers will ever publish.  A step leads from the blanked state to the
blanked successor, so an execution takes the same course whatever those ids are.
-/

namespace FlowEvents

/-- The event as a producer leaves it that sets no id. -/
def Event.unnumbered (e : Event) : Event :=
  { e with id := 0 }

/-- The id and the rest make up the event. -/
theorem Event.ext_unnumbered {e e' : Event} (h : e.unnumbered = e'.unnumbered)
    (hid : e.id = e'.id) : e = e' :=
  calc e = { e.unnumbered with id := e.id } := rfl
    _ = { e'.unnumbered with id := e'.id } := by rw [h, hid]
    _ = e' := rfl

namespace Bus

mutual

/-- The observer that publishes the same without ids. -/
def Observer.unnumbered : Observer → Observer
  | .mk name react => .mk name fun e => (react e).unnumbered

def Reaction.unnumbered : Reaction → Reaction
  | .mk acts ending => .mk (unnumberedActs acts) ending

def unnumberedActs : List Act → List Act
  | [] => []
  | act :: acts => act.unnumbered :: unnumberedActs acts

/-- What is recorded or written is left alone: it is not handed to the bus. -/
def Act.unnumbered : Act → Act
  | .publish e => .publish e.unnumbered
  | .register o => .register o.unnumbered
  | .write l => .write l
  | .keep e => .keep e

end

def Notice.unnumbered (n : Notice) : Notice :=
  { n with observer := n.observer.unnumbered }

def Role.unnumbered : Role → Role
  | .caller => .caller
  | .delivery notice => .delivery notice.unnumbered

/-- Once a number has been drawn, the event carries that one. -/
def Control.unnumbered : Control → Control
  | .called call e => .called call e.unnumbered
  | .sending p left => .sending p (left.map (Prod.map Observer.unnumbered id))
  | .enrolling call o => .enrolling call o.unnumbered
  | control => control

def Task.unnumbered (t : Task) : Task :=
  { t with
    role := t.role.unnumbered
    control := t.control.unnumbered
    todo := unnumberedActs t.todo }

def Entry.unnumbered : Entry → Entry
  | .called call task e => .called call task e.unnumbered
  | .enrolling call task o => .enrolling call task o.unnumbered
  | entry => entry

def Move.unnumbered : Move → Move
  | .join place acts => .join place (unnumberedActs acts)
  | .step task => .step task

namespace State

/-- The state without the ids that producers set. -/
def unnumbered (s : State) : State :=
  { s with
    observers := s.observers.map Observer.unnumbered
    tasks := s.tasks.map Task.unnumbered
    journal := s.journal.map Entry.unnumbered }

/-! ## What is left when the ids are gone -/

theorem name_unnumbered (o : Observer) : o.unnumbered.name = o.name := by
  cases o
  simp [Observer.unnumbered, Observer.name]

theorem react_unnumbered (o : Observer) (e : Event) :
    o.unnumbered.react e = (o.react e).unnumbered := by
  cases o
  simp [Observer.unnumbered, Observer.react]

theorem acts_unnumbered (r : Reaction) : r.unnumbered.acts = unnumberedActs r.acts := by
  cases r
  simp [Reaction.unnumbered, Reaction.acts]

theorem ending_unnumbered (r : Reaction) : r.unnumbered.ending = r.ending := by
  cases r
  simp [Reaction.unnumbered, Reaction.ending]

theorem lastLine?_unnumbered (t : Task) : lastLine? t.unnumbered = lastLine? t := by
  rcases t with ⟨place, role, control, todo, ending⟩
  cases role with
  | caller => cases ending <;> rfl
  | delivery notice =>
      cases ending <;> simp [lastLine?, Task.unnumbered, Role.unnumbered, Notice.unnumbered,
        name_unnumbered]

theorem zipIdx_unnumbered (os : List Observer) :
    (os.map Observer.unnumbered).zipIdx = os.zipIdx.map (Prod.map Observer.unnumbered id) :=
  List.zipIdx_map

theorem getElem?_unnumbered (s : State) (i : Nat) :
    s.unnumbered.tasks[i]? = s.tasks[i]?.map Task.unnumbered :=
  Array.getElem?_map

/-! ## What a step is made of -/

theorem unnumbered_setTask (s : State) (i : Nat) (t : Task) :
    (s.setTask i t).unnumbered = s.unnumbered.setTask i t.unnumbered := by
  simp [setTask, unnumbered, Array.map_setIfInBounds]

theorem unnumbered_spawn (s : State) (t : Task) :
    (s.spawn t).unnumbered = s.unnumbered.spawn t.unnumbered := by
  simp [spawn, unnumbered]

theorem unnumbered_note (s : State) (x : Entry) :
    (s.note x).unnumbered = s.unnumbered.note x.unnumbered := by
  simp [note, unnumbered]

theorem unnumbered_enrol (s : State) (o : Observer) :
    (s.enrol o).unnumbered = s.unnumbered.enrol o.unnumbered := by
  simp [enrol, unnumbered]

theorem unnumbered_write (s : State) (writer : Nat) (line : Log.Line) :
    (s.write writer line).unnumbered = s.unnumbered.write writer line := rfl

theorem unnumbered_countCall (s : State) : s.countCall.unnumbered = s.unnumbered.countCall := rfl

theorem unnumbered_drawNumber (s : State) :
    s.drawNumber.unnumbered = s.unnumbered.drawNumber := rfl

theorem unnumbered_finish (i : Nat) (t : Task) (s : State) :
    (s.finish i t).unnumbered = s.unnumbered.finish i t.unnumbered := by
  have hend : t.unnumbered.ending = t.ending := rfl
  unfold finish
  rw [hend, lastLine?_unnumbered]
  split
  · exact unnumbered_setTask s i _
  · cases lastLine? t with
    | none =>
        dsimp only
        rw [unnumbered_note, unnumbered_setTask]
        rfl
    | some line =>
        dsimp only
        rw [unnumbered_write, unnumbered_note, unnumbered_setTask]
        rfl

theorem unnumbered_begin (i : Nat) (t : Task) (s : State) (hc : t.control = .ready) :
    (s.begin i t).unnumbered = s.unnumbered.begin i t.unnumbered := by
  rcases t with ⟨place, role, control, todo, ending⟩
  obtain rfl : control = .ready := hc
  cases todo with
  | nil => exact unnumbered_finish i _ s
  | cons act todo =>
      cases act with
      | publish e | register o =>
          dsimp only [begin, Task.unnumbered, unnumberedActs, Act.unnumbered]
          rw [unnumbered_note, unnumbered_countCall, unnumbered_setTask]
          rfl
      | write line =>
          dsimp only [begin, Task.unnumbered, unnumberedActs, Act.unnumbered]
          rw [unnumbered_write, unnumbered_setTask]
          rfl
      | keep e =>
          dsimp only [begin, Task.unnumbered, unnumberedActs, Act.unnumbered]
          rw [unnumbered_note, unnumbered_setTask]
          rfl

/-! ## Steps and executions -/

theorem unnumbered_step (i : Nat) (s : State) :
    (s.step i).unnumbered = s.unnumbered.step i := by
  unfold step
  rw [getElem?_unnumbered]
  cases ht : s.tasks[i]? with
  | none => rfl
  | some t =>
      rw [Option.map_some]
      dsimp only
      rcases t with ⟨place, role, control, todo, ending⟩
      cases control with
      | waiting =>
          cases role with
          | caller => exact unnumbered_setTask s i _
          | delivery notice =>
              dsimp only [Task.unnumbered, Role.unnumbered, Control.unnumbered, Notice.unnumbered]
              rw [unnumbered_note, unnumbered_setTask, react_unnumbered, acts_unnumbered,
                ending_unnumbered]
              rfl
      | ready => exact unnumbered_begin i _ s rfl
      | called call e =>
          -- the number drawn takes the place of the id that was blanked out
          dsimp only [Task.unnumbered, Control.unnumbered]
          rw [unnumbered_note, unnumbered_setTask, unnumbered_drawNumber]
          rfl
      | numbered p =>
          dsimp only [Task.unnumbered, Control.unnumbered]
          rw [apply_ite unnumbered, unnumbered_write, unnumbered_setTask]
          rfl
      | traced p =>
          dsimp only [Task.unnumbered, Control.unnumbered]
          rw [unnumbered_note, unnumbered_setTask]
          simp [unnumbered, zipIdx_unnumbered, Task.unnumbered, Control.unnumbered,
            Entry.unnumbered]
      | sending p left =>
          cases left with
          | nil =>
              dsimp only [Task.unnumbered, Control.unnumbered, List.map_nil]
              rw [unnumbered_note, unnumbered_setTask]
              rfl
          | cons first left =>
              obtain ⟨o, slot⟩ := first
              dsimp only [Task.unnumbered, Control.unnumbered, List.map_cons, Prod.map, id]
              rw [unnumbered_note, unnumbered_spawn, unnumbered_setTask]
              simp [unnumbered, setTask, spawn, note, Task.unnumbered, Task.delivery,
                Control.unnumbered, Role.unnumbered, Notice.unnumbered, unnumberedActs,
                Entry.unnumbered]
      | enrolling call o =>
          dsimp only [Task.unnumbered, Control.unnumbered]
          rw [unnumbered_note, unnumbered_setTask, unnumbered_enrol]
          simp [unnumbered, Task.unnumbered, Control.unnumbered, Entry.unnumbered]
      | enrolled call slot =>
          dsimp only [Task.unnumbered, Control.unnumbered]
          rw [unnumbered_note, unnumbered_setTask]
          rfl
      | pending | finished => rfl

theorem unnumbered_move (m : Move) (s : State) :
    (s.move m).unnumbered = s.unnumbered.move m.unnumbered := by
  cases m with
  | join place acts => exact unnumbered_spawn s (Task.caller place acts)
  | step i => exact unnumbered_step i s

theorem unnumbered_play (moves : List Move) (s : State) :
    (s.play moves).unnumbered = s.unnumbered.play (moves.map Move.unnumbered) := by
  induction moves using List.reverseRecOn with
  | nil => rfl
  | append_singleton moves m ih =>
      rw [play_concat, unnumbered_move, ih, List.map_append, List.map_singleton, play_concat]

/-- **The ids that producers set do not matter.** Two executions that differ in nothing else
are the same in every state once those ids are blanked out. -/
theorem unnumbered_play_congr (config : Config) (home : Place) {moves moves' : List Move}
    (h : moves.map Move.unnumbered = moves'.map Move.unnumbered) :
    ((new config home).play moves).unnumbered = ((new config home).play moves').unnumbered := by
  rw [unnumbered_play, unnumbered_play, h]

/-! ## What does not show them -/

theorem publication?_unnumbered (x : Entry) : x.unnumbered.publication? = x.publication? := by
  cases x <;> rfl

theorem history_unnumbered (s : State) : s.unnumbered.history = s.history.map Entry.unnumbered := by
  simp [history, unnumbered]

theorem publications_unnumbered (s : State) : s.unnumbered.publications = s.publications := by
  show s.unnumbered.history.filterMap Entry.publication? = s.history.filterMap Entry.publication?
  have hsame : Entry.publication? ∘ Entry.unnumbered = Entry.publication? := by
    ext1 x
    exact publication?_unnumbered x
  rw [history_unnumbered, List.filterMap_map, hsame]

theorem lastNumber_unnumbered (s : State) : s.unnumbered.lastNumber = s.lastNumber := rfl

end State

end Bus

end FlowEvents
