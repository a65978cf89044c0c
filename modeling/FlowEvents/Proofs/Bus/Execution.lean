import FlowEvents.Bus.Session

/-! # Executions

An execution is a list of moves, in any order: callers join from outside, and tasks go one atomic
step further.  `Step` says once and for all what a step can do; whatever holds throughout an
execution is proved by going through its cases.

The turns of a session are executions of this kind (`exists_play_turn`).
-/

namespace FlowEvents.Bus

/-- What can happen around a bus. -/
inductive Move where
  /-- A caller joins, at a place and with the acts that it is about to go through. -/
  | join (place : Place) (acts : List Act)
  /-- A task goes one atomic step further. -/
  | step (task : Nat)

/-- The notification that a task is, if it is one. -/
def Task.notice? (t : Task) : Option Notice :=
  match t.role with
  | .caller => none
  | .delivery notice => some notice

theorem Task.notice?_congr {t u : Task} (h : t.role = u.role) : t.notice? = u.notice? := by
  rw [notice?, notice?, h]

theorem Task.notice?_eq_some {t : Task} {n : Notice} :
    t.notice? = some n ↔ t.role = .delivery n := by
  unfold notice?
  cases t.role <;> simp

namespace State

/-- What happened so far, as a list. -/
def history (s : State) : List Entry :=
  s.journal.toList

/-- The notifications created so far, in the order of creation. -/
def notices (s : State) : List Notice :=
  s.tasks.toList.filterMap Task.notice?

theorem mem_notices {s : State} {n : Notice} :
    n ∈ s.notices ↔ ∃ t ∈ s.tasks, t.notice? = some n := by
  simp only [notices, List.mem_filterMap, Array.mem_toList_iff]

/-- Carries out a move. -/
def move (s : State) : Move → State
  | .join place acts => s.spawn (Task.caller place acts)
  | .step task => s.step task

/-- The execution of a list of moves. -/
def play (moves : List Move) (s : State) : State :=
  moves.foldl move s

theorem play_append (first second : List Move) (s : State) :
    s.play (first ++ second) = (s.play first).play second := by
  simp [play, List.foldl_append]

theorem play_concat (moves : List Move) (m : Move) (s : State) :
    s.play (moves ++ [m]) = (s.play moves).move m :=
  play_append moves [m] s

/-- What holds at first and is kept by every move holds throughout. -/
theorem play_induction {motive : State → Prop} {s : State} (start : motive s)
    (join : ∀ s place acts, motive s → motive (s.spawn (Task.caller place acts)))
    (step : ∀ s i, motive s → motive (s.step i)) (moves : List Move) :
    motive (s.play moves) := by
  induction moves generalizing s with
  | nil => exact start
  | cons m moves ih =>
      refine ih ?_
      cases m with
      | join place acts => exact join s place acts start
      | step i => exact step s i start

theorem run_eq_play (schedule : List Nat) (s : State) :
    s.run schedule = s.play (schedule.map Move.step) := by
  induction schedule generalizing s with
  | nil => rfl
  | cons i schedule ih => exact ih (s.step i)

theorem addCallers_eq_play (callers : List (Place × List Act)) (s : State) :
    s.addCallers callers = s.play (callers.map fun c => .join c.1 c.2) := by
  induction callers generalizing s with
  | nil => rfl
  | cons c callers ih => exact ih (s.spawn (Task.caller c.1 c.2))

end State

/-- A turn of a session is an execution. -/
theorem Session.exists_play_turn (s : Session) (callers : List (Place × List Act)) :
    ∃ moves, (s.turn callers).2.state = s.state.play moves := by
  obtain ⟨schedule, h⟩ :=
    State.settleFrom_eq_run s.held Session.patience 0 (s.state.addCallers callers)
  refine ⟨callers.map (fun c => .join c.1 c.2) ++ schedule.map Move.step, ?_⟩
  rw [State.play_append, ← State.addCallers_eq_play, ← State.run_eq_play]
  exact h

/-! ## What a step can do -/

namespace State

open Log (Line)

/-- The steps of task `i`.  The task has the same role and place afterwards; a step makes at most
one entry in the journal and writes at most one line. -/
inductive Step (i : Nat) (s : State) : State → Prop
  /-- There is no such task, or nothing more is to be expected of it. -/
  | idle : Step i s s
  | opened (t : Task) (ht : s.tasks[i]? = some t) (hc : t.control = .waiting)
      (hr : t.role = .caller) :
      Step i s { s with tasks := s.tasks.setIfInBounds i { t with control := .ready } }
  | started (t : Task) (notice : Notice) (reaction : Reaction) (ht : s.tasks[i]? = some t)
      (hc : t.control = .waiting) (hr : t.role = .delivery notice)
      (hreact : reaction = notice.observer.react notice.publication.event) :
      Step i s { s with
        tasks := s.tasks.setIfInBounds i
          { t with control := .ready, todo := reaction.acts, ending := reaction.ending }
        journal := s.journal.push (.started i) }
  | stayed (t : Task) (ht : s.tasks[i]? = some t) (hc : t.control = .ready) (htodo : t.todo = [])
      (hend : t.ending = .pending) :
      Step i s { s with tasks := s.tasks.setIfInBounds i { t with control := .pending } }
  | ended (t : Task) (ht : s.tasks[i]? = some t) (hc : t.control = .ready) (htodo : t.todo = [])
      (hend : t.ending ≠ .pending) :
      Step i s { s with
        tasks := s.tasks.setIfInBounds i { t with control := .finished }
        journal := s.journal.push (.ended i)
        log := s.log ++ ((lastLine? t).map (Written.mk i)).toArray }
  | called (t : Task) (e : Event) (todo : List Act) (ht : s.tasks[i]? = some t)
      (hc : t.control = .ready) (htodo : t.todo = .publish e :: todo) :
      Step i s { s with
        tasks := s.tasks.setIfInBounds i { t with todo, control := .called s.calls e }
        calls := s.calls + 1
        journal := s.journal.push (.called s.calls i e) }
  | enrolling (t : Task) (o : Observer) (todo : List Act) (ht : s.tasks[i]? = some t)
      (hc : t.control = .ready) (htodo : t.todo = .register o :: todo) :
      Step i s { s with
        tasks := s.tasks.setIfInBounds i { t with todo, control := .enrolling s.calls o }
        calls := s.calls + 1
        journal := s.journal.push (.enrolling s.calls i o) }
  | written (t : Task) (line : Line) (todo : List Act) (ht : s.tasks[i]? = some t)
      (hc : t.control = .ready) (htodo : t.todo = .write line :: todo) :
      Step i s { s with
        tasks := s.tasks.setIfInBounds i { t with todo }
        log := s.log.push ⟨i, line⟩ }
  | kept (t : Task) (e : Event) (todo : List Act) (ht : s.tasks[i]? = some t)
      (hc : t.control = .ready) (htodo : t.todo = .keep e :: todo) :
      Step i s { s with
        tasks := s.tasks.setIfInBounds i { t with todo }
        journal := s.journal.push (.kept i e) }
  | numbered (t : Task) (call : Nat) (e : Event) (p : Publication) (ht : s.tasks[i]? = some t)
      (hc : t.control = .called call e)
      (hp : p = ⟨call, i, s.issued + 1, { e with id := UInt64.ofNat (s.issued + 1) }⟩) :
      Step i s { s with
        tasks := s.tasks.setIfInBounds i { t with control := .numbered p }
        issued := s.issued + 1
        journal := s.journal.push (.numbered p) }
  | traced (t : Task) (p : Publication) (ht : s.tasks[i]? = some t)
      (hc : t.control = .numbered p) :
      Step i s { s with
        tasks := s.tasks.setIfInBounds i { t with control := .traced p }
        log := if s.config.announces p.event.tag then s.log.push ⟨i, p.event.publishLine⟩
          else s.log }
  | listed (t : Task) (p : Publication) (ht : s.tasks[i]? = some t)
      (hc : t.control = .traced p) :
      Step i s { s with
        tasks := s.tasks.setIfInBounds i { t with control := .sending p s.observers.zipIdx }
        journal := s.journal.push (.listed p s.observers.length) }
  | returned (t : Task) (p : Publication) (ht : s.tasks[i]? = some t)
      (hc : t.control = .sending p []) :
      Step i s { s with
        tasks := s.tasks.setIfInBounds i { t with control := .ready }
        journal := s.journal.push (.returned p) }
  | sent (t : Task) (p : Publication) (o : Observer) (slot : Nat) (left : List (Observer × Nat))
      (ht : s.tasks[i]? = some t) (hc : t.control = .sending p ((o, slot) :: left)) :
      Step i s { s with
        tasks := (s.tasks.setIfInBounds i { t with control := .sending p left }).push
          (Task.delivery (t.place.forNotice s.home) ⟨p, slot, o⟩)
        journal := s.journal.push (.sent p slot s.tasks.size) }
  | enrolled (t : Task) (call : Nat) (o : Observer) (ht : s.tasks[i]? = some t)
      (hc : t.control = .enrolling call o) :
      Step i s { s with
        tasks := s.tasks.setIfInBounds i { t with control := .enrolled call s.observers.length }
        observers := s.observers ++ [o]
        journal := s.journal.push (.enrolled call s.observers.length) }
  | registered (t : Task) (call slot : Nat) (ht : s.tasks[i]? = some t)
      (hc : t.control = .enrolled call slot) :
      Step i s { s with
        tasks := s.tasks.setIfInBounds i { t with control := .ready }
        journal := s.journal.push (.registered call slot) }

/-- A task that is between two acts either ends or begins the next act. -/
theorem step_begin (i : Nat) (t : Task) (s : State) (ht : s.tasks[i]? = some t)
    (hc : t.control = .ready) : Step i s (s.begin i t) := by
  unfold begin
  cases htodo : t.todo with
  | nil =>
      dsimp only
      unfold finish
      split
      next hend => exact .stayed t ht hc htodo hend
      next hend =>
        have := Step.ended t ht hc htodo hend
        cases hl : lastLine? t with
        | none => simpa [hl, setTask, note] using this
        | some line => simpa [hl, setTask, note, write] using this
  | cons act todo =>
      cases act with
      | publish e => exact .called t e todo ht hc htodo
      | register o => exact .enrolling t o todo ht hc htodo
      | write line => exact .written t line todo ht hc htodo
      | keep e => exact .kept t e todo ht hc htodo

/-- **Steps.** Whatever a task does next is one of the listed steps. -/
theorem step_spec (i : Nat) (s : State) : Step i s (s.step i) := by
  unfold step
  split
  next => exact .idle
  next t ht =>
    split
    next hc =>
      split
      next hr => exact .opened t ht hc hr
      next notice hr => exact .started t notice _ ht hc hr rfl
    next hc => exact step_begin i t s ht hc
    next call e hc => exact .numbered t call e _ ht hc rfl
    next p hc =>
      have := Step.traced t p ht hc
      dsimp only [setTask, write]
      split
      next hann => simpa [hann] using this
      next hann => simpa [hann] using this
    next p hc =>
      have := Step.listed t p ht hc
      simpa [setTask, note] using this
    next p hc => exact .returned t p ht hc
    next p o slot left hc =>
      have := Step.sent t p o slot left ht hc
      simpa [setTask, note, spawn] using this
    next call o hc => exact .enrolled t call o ht hc
    next call slot hc => exact .registered t call slot ht hc
    next => exact .idle
    next => exact .idle

/-! ## The journal only grows -/

theorem history_eq_concat {s s' : State} {x : Entry} (h : s'.journal = s.journal.push x) :
    s'.history = s.history ++ [x] := by
  rw [history, h, Array.toList_push, history]

theorem publications_concat {s s' : State} {x : Entry}
    (h : s'.history = s.history ++ [x]) :
    s'.publications = s.publications ++ x.publication?.toList := by
  have heq : s'.publications = s'.history.filterMap Entry.publication? := rfl
  rw [heq, h, List.filterMap_append]
  cases hx : x.publication? <;> simp [hx, publications, history]

theorem Step.history_grows {i : Nat} {s s' : State} (h : Step i s s') :
    s.history <+: s'.history := by
  have grown : ∀ {s' : State} {x : Entry}, s'.journal = s.journal.push x →
      s.history <+: s'.history := by
    intro s' x hx
    rw [history_eq_concat hx]
    exact List.prefix_append _ _
  cases h with
  | idle | opened | stayed | written | traced => exact List.prefix_rfl
  | _ => exact grown rfl

theorem history_prefix_play (moves : List Move) (s : State) :
    s.history <+: (s.play moves).history := by
  induction moves generalizing s with
  | nil => exact List.prefix_rfl
  | cons m moves ih =>
      refine List.IsPrefix.trans ?_ (ih (s.move m))
      cases m with
      | join place acts => exact List.prefix_rfl
      | step i => exact (step_spec i s).history_grows

/-! ## A task stays what it is, and where it is -/

theorem Step.task_kept {i j : Nat} {s s' : State} {t : Task} (h : Step i s s')
    (ht : s.tasks[j]? = some t) :
    ∃ u, s'.tasks[j]? = some u ∧ u.role = t.role ∧ u.place = t.place := by
  have changed : ∀ {t₀ t' : Task}, s.tasks[i]? = some t₀ →
      t'.role = t₀.role ∧ t'.place = t₀.place →
      ∃ u, (s.tasks.setIfInBounds i t')[j]? = some u ∧ u.role = t.role ∧ u.place = t.place := by
    intro t₀ t' ht₀ hkept
    by_cases hij : i = j
    · subst hij
      obtain rfl : t = t₀ := Option.some.inj (ht.symm.trans ht₀)
      have hlt := (Array.getElem?_eq_some_iff.mp ht).1
      exact ⟨t', Array.getElem?_setIfInBounds_self_of_lt hlt, hkept⟩
    · exact ⟨t, by rwa [Array.getElem?_setIfInBounds_ne hij], rfl, rfl⟩
  cases h with
  | idle => exact ⟨t, ht, rfl, rfl⟩
  | sent t₀ p o slot left ht₀ hc =>
      have hsame : Task.role { t₀ with control := .sending p left } = t₀.role ∧
          Task.place { t₀ with control := .sending p left } = t₀.place := ⟨rfl, rfl⟩
      obtain ⟨u, hu, hkept⟩ := changed ht₀ hsame
      have hlt := (Array.getElem?_eq_some_iff.mp hu).1
      refine ⟨u, ?_, hkept⟩
      rw [Array.getElem?_push_lt hlt, ← hu, Array.getElem?_eq_getElem hlt]
  | opened t₀ ht₀ | stayed t₀ ht₀ | ended t₀ ht₀ | traced t₀ p ht₀ | listed t₀ p ht₀
  | returned t₀ p ht₀ | enrolled t₀ call o ht₀ | registered t₀ call slot ht₀
  | started t₀ notice reaction ht₀ | called t₀ e todo ht₀ | enrolling t₀ o todo ht₀
  | written t₀ line todo ht₀ | kept t₀ e todo ht₀ | numbered t₀ call e p ht₀ =>
      exact changed ht₀ ⟨rfl, rfl⟩

theorem task_kept_play {j : Nat} {s : State} {t : Task} (moves : List Move)
    (ht : s.tasks[j]? = some t) :
    ∃ u, (s.play moves).tasks[j]? = some u ∧ u.role = t.role ∧ u.place = t.place := by
  induction moves generalizing s t with
  | nil => exact ⟨t, ht, rfl, rfl⟩
  | cons m moves ih =>
      have hmove : ∃ u, (s.move m).tasks[j]? = some u ∧ u.role = t.role ∧ u.place = t.place := by
        cases m with
        | join place acts =>
            have hlt := (Array.getElem?_eq_some_iff.mp ht).1
            refine ⟨t, ?_, rfl, rfl⟩
            rw [← ht]
            exact (Array.getElem?_push_lt hlt).trans (Array.getElem?_eq_getElem hlt).symm
        | step i => exact (step_spec i s).task_kept ht
      obtain ⟨u, hu, hrole, hplace⟩ := hmove
      obtain ⟨v, hv, hrole', hplace'⟩ := ih hu
      exact ⟨v, hv, hrole'.trans hrole, hplace'.trans hplace⟩

theorem Step.role_kept {i j : Nat} {s s' : State} {t : Task} (h : Step i s s')
    (ht : s.tasks[j]? = some t) : ∃ u, s'.tasks[j]? = some u ∧ u.role = t.role := by
  obtain ⟨u, hu, hrole, -⟩ := h.task_kept ht
  exact ⟨u, hu, hrole⟩

theorem role_kept_play {j : Nat} {s : State} {t : Task} (moves : List Move)
    (ht : s.tasks[j]? = some t) : ∃ u, (s.play moves).tasks[j]? = some u ∧ u.role = t.role := by
  obtain ⟨u, hu, hrole, -⟩ := task_kept_play moves ht
  exact ⟨u, hu, hrole⟩

/-- A task that a step creates is a notification that has not begun, of the publish that its task
was sending. -/
theorem Step.created {i j : Nat} {s s' : State} {u : Task} (h : Step i s s')
    (hnone : s.tasks[j]? = none) (hu : s'.tasks[j]? = some u) :
    ∃ t p o slot left, s.tasks[i]? = some t ∧ t.control = .sending p ((o, slot) :: left) ∧
      u = Task.delivery (t.place.forNotice s.home) ⟨p, slot, o⟩ := by
  have unchanged : ∀ t' : Task, (s.tasks.setIfInBounds i t')[j]? ≠ some u := by
    intro t' hu
    have hj := (Array.getElem?_eq_some_iff.mp hu).1
    rw [Array.size_setIfInBounds] at hj
    rw [Array.getElem?_eq_none_iff] at hnone
    omega
  cases h with
  | idle =>
      rw [hnone] at hu
      cases hu
  | sent t p o slot left ht hc =>
      rw [Array.getElem?_push] at hu
      split at hu
      next => exact ⟨t, p, o, slot, left, ht, hc, (Option.some.inj hu).symm⟩
      next => exact absurd hu (unchanged _)
  | _ => exact absurd hu (unchanged _)

end State

end FlowEvents.Bus
