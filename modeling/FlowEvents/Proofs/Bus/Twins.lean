import FlowEvents.Proofs.Bus.Coherence
import FlowEvents.Proofs.Event.Executor

/-! # Executions that differ in the executors

Let two executions go through the same moves, with twins for events.  An observer may look at the
executor of an event, so it takes observers that do as much for an event as for its twin, and
register such observers in their turn.  Then the executions stay side by side: after every move the
tasks stand at the same point, the same calls have been made and answered, and the logs are the same
line by line.
-/

namespace FlowEvents.Bus

open Log (Line)

/-! ## Twins -/

mutual

/-- Two observers have the same name and do the same for twins. -/
inductive Observer.Twin : Observer → Observer → Prop
  | mk (name : Option String) {react react' : Event → Reaction}
      (h : ∀ e e', e.Twin e' → Reaction.Twin (react e) (react' e')) :
      Observer.Twin (.mk name react) (.mk name react')

/-- Two reactions go through acts that differ only in the executors, and end alike. -/
inductive Reaction.Twin : Reaction → Reaction → Prop
  | mk {acts acts' : List Act} (ending : Ending) (h : List.Forall₂ Act.Twin acts acts') :
      Reaction.Twin (.mk acts ending) (.mk acts' ending)

inductive Act.Twin : Act → Act → Prop
  | publish {e e' : Event} (h : e.Twin e') : Act.Twin (.publish e) (.publish e')
  | register {o o' : Observer} (h : Observer.Twin o o') : Act.Twin (.register o) (.register o')
  | write (line : Line) : Act.Twin (.write line) (.write line)
  | keep {e e' : Event} (h : e.Twin e') : Act.Twin (.keep e) (.keep e')

end

structure Publication.Twin (p p' : Publication) : Prop where
  call : p.call = p'.call
  publisher : p.publisher = p'.publisher
  number : p.number = p'.number
  event : p.event.Twin p'.event

structure Notice.Twin (n n' : Notice) : Prop where
  publication : n.publication.Twin n'.publication
  slot : n.slot = n'.slot
  observer : n.observer.Twin n'.observer

inductive Role.Twin : Role → Role → Prop
  | caller : Role.Twin .caller .caller
  | delivery {n n' : Notice} (h : n.Twin n') : Role.Twin (.delivery n) (.delivery n')

/-- What two publishes have still to send. -/
def LeftTwin (x x' : Observer × Nat) : Prop :=
  x.1.Twin x'.1 ∧ x.2 = x'.2

inductive Control.Twin : Control → Control → Prop
  | waiting : Control.Twin .waiting .waiting
  | ready : Control.Twin .ready .ready
  | called (call : Nat) {e e' : Event} (h : e.Twin e') :
      Control.Twin (.called call e) (.called call e')
  | numbered {p p' : Publication} (h : p.Twin p') : Control.Twin (.numbered p) (.numbered p')
  | traced {p p' : Publication} (h : p.Twin p') : Control.Twin (.traced p) (.traced p')
  | sending {p p' : Publication} {left left' : List (Observer × Nat)} (h : p.Twin p')
      (hleft : List.Forall₂ LeftTwin left left') :
      Control.Twin (.sending p left) (.sending p' left')
  | enrolling (call : Nat) {o o' : Observer} (h : o.Twin o') :
      Control.Twin (.enrolling call o) (.enrolling call o')
  | enrolled (call slot : Nat) : Control.Twin (.enrolled call slot) (.enrolled call slot)
  | pending : Control.Twin .pending .pending
  | finished : Control.Twin .finished .finished

inductive Task.Twin : Task → Task → Prop
  | mk (place : Place) (ending : Ending) {role role' : Role} {control control' : Control}
      {todo todo' : List Act} (hrole : role.Twin role') (hcontrol : control.Twin control')
      (htodo : List.Forall₂ Act.Twin todo todo') :
      Task.Twin ⟨place, role, control, todo, ending⟩ ⟨place, role', control', todo', ending⟩

inductive Entry.Twin : Entry → Entry → Prop
  | called (call task : Nat) {e e' : Event} (h : e.Twin e') :
      Entry.Twin (.called call task e) (.called call task e')
  | numbered {p p' : Publication} (h : p.Twin p') : Entry.Twin (.numbered p) (.numbered p')
  | listed {p p' : Publication} (count : Nat) (h : p.Twin p') :
      Entry.Twin (.listed p count) (.listed p' count)
  | sent {p p' : Publication} (slot task : Nat) (h : p.Twin p') :
      Entry.Twin (.sent p slot task) (.sent p' slot task)
  | returned {p p' : Publication} (h : p.Twin p') : Entry.Twin (.returned p) (.returned p')
  | enrolling (call task : Nat) {o o' : Observer} (h : o.Twin o') :
      Entry.Twin (.enrolling call task o) (.enrolling call task o')
  | enrolled (call slot : Nat) : Entry.Twin (.enrolled call slot) (.enrolled call slot)
  | registered (call slot : Nat) : Entry.Twin (.registered call slot) (.registered call slot)
  | started (task : Nat) : Entry.Twin (.started task) (.started task)
  | kept (task : Nat) {e e' : Event} (h : e.Twin e') : Entry.Twin (.kept task e) (.kept task e')
  | ended (task : Nat) : Entry.Twin (.ended task) (.ended task)

inductive Move.Twin : Move → Move → Prop
  | join (place : Place) {acts acts' : List Act} (h : List.Forall₂ Act.Twin acts acts') :
      Move.Twin (.join place acts) (.join place acts')
  | step (task : Nat) : Move.Twin (.step task) (.step task)

/-- The states differ in the executors and in nothing else; the logs do not differ at all. -/
structure State.Twin (s s' : State) : Prop where
  config : s.config = s'.config
  home : s.home = s'.home
  calls : s.calls = s'.calls
  issued : s.issued = s'.issued
  observers : List.Forall₂ Observer.Twin s.observers s'.observers
  size : s.tasks.size = s'.tasks.size
  tasks : ∀ (i : Nat) (t t' : Task), s.tasks[i]? = some t → s'.tasks[i]? = some t' → t.Twin t'
  history : List.Forall₂ Entry.Twin s.history s'.history
  log : s.log = s'.log

/-! ## What twins have in common -/

theorem Observer.Twin.name_eq {o o' : Observer} (h : o.Twin o') : o.name = o'.name := by
  cases h
  rfl

theorem Observer.Twin.react {o o' : Observer} {e e' : Event} (h : o.Twin o') (he : e.Twin e') :
    (o.react e).Twin (o'.react e') := by
  cases h with
  | mk name h => exact h e e' he

theorem Reaction.Twin.acts {r r' : Reaction} (h : r.Twin r') :
    List.Forall₂ Act.Twin r.acts r'.acts := by
  cases h with
  | mk ending h => exact h

theorem Reaction.Twin.ending {r r' : Reaction} (h : r.Twin r') : r.ending = r'.ending := by
  cases h
  rfl

/-- The logging observer writes the same line for twins. -/
theorem Observer.Twin.logging : Observer.logging.Twin .logging := by
  refine .mk _ fun e e' he => .mk _ (.cons ?_ .nil)
  rw [he.receiptLine_eq]
  exact .write _

namespace State

theorem Twin.lastLine?_eq {t t' : Task} (h : t.Twin t') : lastLine? t = lastLine? t' := by
  obtain ⟨place, ending, hrole, hcontrol, htodo⟩ := h
  cases hrole with
  | caller => rfl
  | delivery hn => cases ending <;> simp [lastLine?, hn.observer.name_eq]

/-! ## What a step is made of -/

variable {s s' : State} {i : Nat} {t t' : Task}

theorem Twin.setTask (h : s.Twin s') (i : Nat) (ht : t.Twin t') :
    (s.setTask i t).Twin (s'.setTask i t') where
  __ := h
  size := by simpa [State.setTask] using h.size
  tasks j u u' hu hu' := by
    by_cases hj : i = j
    · subst hj
      have hlt : i < s.tasks.size := by
        simpa [State.setTask] using lt_size_of_getElem? hu
      have hlt' : i < s'.tasks.size := h.size ▸ hlt
      rw [State.setTask, Array.getElem?_setIfInBounds_self_of_lt hlt] at hu
      rw [State.setTask, Array.getElem?_setIfInBounds_self_of_lt hlt'] at hu'
      rwa [← Option.some.inj hu, ← Option.some.inj hu']
    · rw [State.setTask, Array.getElem?_setIfInBounds_ne hj] at hu hu'
      exact h.tasks j u u' hu hu'

theorem Twin.spawn (h : s.Twin s') (ht : t.Twin t') : (s.spawn t).Twin (s'.spawn t') where
  __ := h
  size := by simp [State.spawn, h.size]
  tasks j u u' hu hu' := by
    have hsize := h.size
    rcases getElem?_push hu with hu | ⟨rfl, rfl⟩
    · have hlt := lt_size_of_getElem? hu
      rcases getElem?_push hu' with hu' | ⟨rfl, rfl⟩
      · exact h.tasks j u u' hu hu'
      · omega
    · rcases getElem?_push hu' with hu' | ⟨-, rfl⟩
      · have hlt := lt_size_of_getElem? hu'
        omega
      · exact ht

theorem Twin.note {x x' : Entry} (h : s.Twin s') (hx : x.Twin x') :
    (s.note x).Twin (s'.note x') where
  __ := h
  history := by
    have hhist : (s.note x).history = s.history ++ [x] := history_eq_concat rfl
    have hhist' : (s'.note x').history = s'.history ++ [x'] := history_eq_concat rfl
    rw [hhist, hhist']
    exact List.rel_append h.history (.cons hx .nil)

theorem Twin.write (h : s.Twin s') (i : Nat) (line : Line) :
    (s.write i line).Twin (s'.write i line) where
  __ := h
  log := by simp [State.write, h.log]

theorem Twin.enrol {o o' : Observer} (h : s.Twin s') (ho : o.Twin o') :
    (s.enrol o).Twin (s'.enrol o') where
  __ := h
  observers := List.rel_append h.observers (.cons ho .nil)

theorem Twin.countCall (h : s.Twin s') : s.countCall.Twin s'.countCall where
  __ := h
  calls := by simp [State.countCall, h.calls]

theorem Twin.drawNumber (h : s.Twin s') : s.drawNumber.Twin s'.drawNumber where
  __ := h
  issued := by simp [State.drawNumber, h.issued]

theorem Twin.finish (h : s.Twin s') (i : Nat) (ht : t.Twin t') :
    (s.finish i t).Twin (s'.finish i t') := by
  have hline := Twin.lastLine?_eq ht
  obtain ⟨place, ending, hrole, -, htodo⟩ := ht
  unfold State.finish
  rw [hline]
  dsimp only
  split
  · exact h.setTask i (.mk place ending hrole .pending htodo)
  · have hended := (h.setTask i (.mk place ending hrole .finished htodo)).note (.ended i)
    split
    · exact hended.write i _
    · exact hended

/-- The next acts of twins are of one kind. -/
theorem Twin.begin (h : s.Twin s') (i : Nat) (ht : t.Twin t') :
    (s.begin i t).Twin (s'.begin i t') := by
  have hfinish := h.finish i ht
  obtain ⟨place, ending, hrole, hcontrol, htodo⟩ := ht
  unfold State.begin
  rw [h.calls]
  cases htodo with
  | nil => exact hfinish
  | cons hact hrest =>
      cases hact with
      | publish he =>
          exact (h.setTask i (.mk place ending hrole (.called _ he) hrest)).countCall.note
            (.called _ i he)
      | register ho =>
          exact (h.setTask i (.mk place ending hrole (.enrolling _ ho) hrest)).countCall.note
            (.enrolling _ i ho)
      | write line => exact (h.setTask i (.mk place ending hrole hcontrol hrest)).write i line
      | keep he => exact (h.setTask i (.mk place ending hrole hcontrol hrest)).note (.kept i he)

theorem forall₂_zipIdx {os os' : List Observer} (h : List.Forall₂ Observer.Twin os os') (k : Nat) :
    List.Forall₂ LeftTwin (os.zipIdx k) (os'.zipIdx k) := by
  induction h generalizing k with
  | nil => exact .nil
  | cons ho hos ih => exact .cons ⟨ho, rfl⟩ (ih (k + 1))

theorem Twin.step (h : s.Twin s') (i : Nat) : (s.step i).Twin (s'.step i) := by
  unfold State.step
  cases ht : s.tasks[i]? with
  | none =>
      have hnone : s'.tasks[i]? = none := by
        rw [Array.getElem?_eq_none_iff] at ht ⊢
        exact h.size ▸ ht
      rw [hnone]
      exact h
  | some t =>
      obtain ⟨t', ht'⟩ : ∃ t', s'.tasks[i]? = some t' :=
        ⟨_, Array.getElem?_eq_getElem (h.size ▸ lt_size_of_getElem? ht)⟩
      have htwin := h.tasks i t t' ht ht'
      have hbegin := h.begin i htwin
      rw [ht']
      obtain ⟨place, ending, hrole, hcontrol, htodo⟩ := htwin
      cases hcontrol with
      | waiting =>
          cases hrole with
          | caller => exact h.setTask i (.mk place ending .caller .ready htodo)
          | @delivery n n' hn =>
              have hreact := hn.observer.react hn.publication.event
              dsimp only
              generalize n.observer.react n.publication.event = reaction at hreact ⊢
              generalize n'.observer.react n'.publication.event = reaction' at hreact ⊢
              obtain ⟨ending, hacts⟩ := hreact
              exact (h.setTask i (.mk place ending (.delivery hn) .ready hacts)).note (.started i)
      | ready => exact hbegin
      | @called call e e' he =>
          -- the number and the id are the bus's own
          have hp : Publication.Twin
              ⟨call, i, s'.issued + 1, { e with id := UInt64.ofNat (s'.issued + 1) }⟩
              ⟨call, i, s'.issued + 1, { e' with id := UInt64.ofNat (s'.issued + 1) }⟩ :=
            ⟨rfl, rfl, rfl, he.withId _⟩
          dsimp only
          rw [h.issued]
          exact (h.drawNumber.setTask i (.mk place ending hrole (.numbered hp) htodo)).note
            (.numbered hp)
      | @numbered p p' hp =>
          have htraced := h.setTask i (.mk place ending hrole (.traced hp) htodo)
          dsimp only
          rw [htraced.config, hp.event.tag_eq, hp.event.publishLine_eq]
          split
          · exact htraced.write i _
          · exact htraced
      | traced hp =>
          have hleft := forall₂_zipIdx h.observers 0
          dsimp only
          rw [hleft.length_eq]
          exact (h.setTask i (.mk place ending hrole (.sending hp hleft) htodo)).note (.listed _ hp)
      | @sending p p' left left' hp hleft =>
          cases hleft with
          | nil => exact (h.setTask i (.mk place ending hrole .ready htodo)).note (.returned hp)
          | @cons x x' left left' hx hleft =>
              obtain ⟨o, slot⟩ := x
              obtain ⟨o', slot'⟩ := x'
              obtain ⟨ho, rfl⟩ : o.Twin o' ∧ slot = slot' := hx
              have hn : Notice.Twin ⟨p, slot, o⟩ ⟨p', slot, o'⟩ := ⟨hp, rfl, ho⟩
              have hset := h.setTask i (.mk place ending hrole (.sending hp hleft) htodo)
              dsimp only
              rw [h.home, hset.size]
              exact (hset.spawn (.mk _ .returned (.delivery hn) .waiting .nil)).note
                (.sent slot _ hp)
      | enrolling call ho =>
          dsimp only
          rw [h.observers.length_eq]
          exact ((h.enrol ho).setTask i (.mk place ending hrole (.enrolled call _) htodo)).note
            (.enrolled call _)
      | enrolled call slot =>
          exact (h.setTask i (.mk place ending hrole .ready htodo)).note (.registered call slot)
      | pending => exact h
      | finished => exact h

/-! ## Executions -/

theorem Twin.move {m m' : Move} (h : s.Twin s') (hm : m.Twin m') :
    (s.move m).Twin (s'.move m') := by
  cases hm with
  | join place hacts => exact h.spawn (.mk place .returned .caller .ready hacts)
  | step i => exact h.step i

theorem Twin.play {moves moves' : List Move} (h : s.Twin s')
    (hmoves : List.Forall₂ Move.Twin moves moves') : (s.play moves).Twin (s'.play moves') := by
  induction hmoves generalizing s s' with
  | nil => exact h
  | cons hm hmoves ih => exact ih (h.move hm)

theorem twin_new (config : Config) (home : Place) : (new config home).Twin (new config home) where
  config := rfl
  home := rfl
  calls := rfl
  issued := rfl
  observers := .nil
  size := rfl
  tasks i t t' ht := by cases ht
  history := .nil
  log := rfl

/-- **The executor does not matter to an execution.** Two executions whose moves differ in nothing
but the executors of events differ in nothing else, and write the same log. -/
theorem twin_play (config : Config) (home : Place) {moves moves' : List Move}
    (hmoves : List.Forall₂ Move.Twin moves moves') :
    ((new config home).play moves).Twin ((new config home).play moves') :=
  (twin_new config home).play hmoves

end State

end FlowEvents.Bus
