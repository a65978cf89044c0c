import FlowEvents.Proofs.Bus.Progress

/-! # All but one observer

Here everything that is one slot's own is blanked out of a state: who sits there, how its
notifications fare, what they recorded and what they wrote.  The other slots are filled from a list
that says who sits where in the end, so an act that registers someone need not say whom.  A step of
any other task then leads from the blanked state to the blanked successor, and a step of the slot's
own notifications cannot be seen at all.
-/

namespace FlowEvents.Bus

/-- The act without the observer that it registers. -/
def Act.anonymous : Act → Act
  | .register _ => .register default
  | act => act

/-- The control with the listed observers as they are seated. -/
def Control.seated (seat : Nat → Observer) : Control → Control
  | .sending p left => .sending p (left.map fun x => (seat x.2, x.2))
  | .enrolling call _ => .enrolling call default
  | control => control

/-- The task is a notification of a slot. -/
def Task.isOf (slot : Nat) (t : Task) : Bool :=
  t.notice?.any fun n => n.slot == slot

/-- The task with the observers as they are seated. -/
def Task.seated (seat : Nat → Observer) (t : Task) : Task :=
  { t with control := t.control.seated seat, todo := t.todo.map Act.anonymous }

/-- The notification as it was created. -/
def Task.untouched (seat : Nat → Observer) (t : Task) : Task :=
  match t.role with
  | .caller => t
  | .delivery n => Task.delivery t.place { n with observer := seat n.slot }

def Task.besides (slot : Nat) (seat : Nat → Observer) (t : Task) : Task :=
  if t.isOf slot then t.untouched seat else t.seated seat

/-- The notification or the caller whose own doing an entry is. -/
def Entry.actor? : Entry → Option Nat
  | .started task => some task
  | .kept task _ => some task
  | .ended task => some task
  | _ => none

/-- The entry without the observer that is to be registered. -/
def Entry.anonymous : Entry → Entry
  | .enrolling call task _ => .enrolling call task default
  | entry => entry

def Move.anonymous : Move → Move
  | .join place acts => .join place (acts.map Act.anonymous)
  | .step task => .step task

namespace State

/-- Task `i` is a notification of a slot. -/
def isTaskOf (s : State) (slot i : Nat) : Bool :=
  s.tasks[i]?.any (Task.isOf slot)

/-- What happened, but for what the notifications of a slot did. -/
def historyBesides (s : State) (slot : Nat) : List Entry :=
  (s.history.filter fun x => !x.actor?.any (s.isTaskOf slot)).map Entry.anonymous

/-- What was written, but for what the notifications of a slot wrote. -/
def logBesides (s : State) (slot : Nat) : List Written :=
  s.log.toList.filter fun w => !s.isTaskOf slot w.writer

/-- The observers as they are seated. -/
def reseat (seat : Nat → Observer) (s : State) : State :=
  { s with observers := (List.range s.observers.length).map seat }

/-- The state without what is a slot's own. -/
def besides (slot : Nat) (seat : Nat → Observer) (s : State) : State :=
  { s with
    observers := (List.range s.observers.length).map seat
    tasks := s.tasks.map (Task.besides slot seat)
    journal := (s.historyBesides slot).toArray
    log := (s.logBesides slot).toArray }

variable {slot i j : Nat} {seat : Nat → Observer} {s s' : State} {t t' : Task} {x : Entry}

/-! ## Whose a task is -/

theorem isTaskOf_eq (ht : s.tasks[i]? = some t) : s.isTaskOf slot i = t.isOf slot := by
  rw [isTaskOf, ht]
  rfl

variable {control : Control} {todo : List Act} {ending : Ending}

/-- A task keeps its role, so it stays whose it is. -/
theorem isTaskOf_setTask (ht : s.tasks[i]? = some t) :
    (s.setTask i ⟨t.place, t.role, control, todo, ending⟩).isTaskOf slot = s.isTaskOf slot := by
  funext j
  by_cases hij : i = j
  · subst hij
    rw [isTaskOf_eq ht, isTaskOf_eq (getElem?_set_self ht _)]
    rfl
  · rw [isTaskOf, isTaskOf, setTask, Array.getElem?_setIfInBounds_ne hij]

theorem isTaskOf_spawn (hj : j < s.tasks.size) :
    (s.spawn t).isTaskOf slot j = s.isTaskOf slot j := by
  have ht := Array.getElem?_eq_getElem hj
  rw [isTaskOf_eq ht, isTaskOf_eq (getElem?_push_of_some ht t)]

theorem getElem?_besides (i : Nat) :
    (s.besides slot seat).tasks[i]? = s.tasks[i]?.map (Task.besides slot seat) :=
  Array.getElem?_map

theorem besides_of_other (h : t.isOf slot = false) : t.besides slot seat = t.seated seat := by
  rw [Task.besides, h]
  rfl

/-! ## What a step is made of -/

theorem besides_setTask (ht : s.tasks[i]? = some t) (hi : t.isOf slot = false) :
    (s.setTask i ⟨t.place, t.role, control, todo, ending⟩).besides slot seat =
      (s.besides slot seat).setTask i
        ⟨t.place, t.role, control.seated seat, todo.map Act.anonymous, ending⟩ := by
  have htask : Task.besides slot seat ⟨t.place, t.role, control, todo, ending⟩ =
      ⟨t.place, t.role, control.seated seat, todo.map Act.anonymous, ending⟩ :=
    besides_of_other hi
  simp only [besides, historyBesides, logBesides, isTaskOf_setTask ht]
  simp [setTask, history, Array.map_setIfInBounds, htask]

theorem besides_of_own (hi : t.isOf slot = true) :
    Task.besides slot seat ⟨t.place, t.role, control, todo, ending⟩ = t.besides slot seat := by
  have hi' : Task.isOf slot ⟨t.place, t.role, control, todo, ending⟩ = true := hi
  rw [Task.besides, Task.besides, if_pos hi, if_pos hi', Task.untouched, Task.untouched]
  cases hr : t.role with
  | caller =>
      rw [Task.isOf, Task.notice?, hr] at hi
      cases hi
  | delivery n => rfl

/-- Whatever becomes of a notification of the slot, it looks as if it had just been created. -/
theorem besides_setTask_own (ht : s.tasks[i]? = some t) (hi : t.isOf slot = true) :
    (s.setTask i ⟨t.place, t.role, control, todo, ending⟩).besides slot seat =
      s.besides slot seat := by
  have htasks : (s.tasks.setIfInBounds i ⟨t.place, t.role, control, todo, ending⟩).map
      (Task.besides slot seat) = s.tasks.map (Task.besides slot seat) := by
    apply Array.ext_getElem?
    intro j
    rw [Array.map_setIfInBounds, besides_of_own hi]
    by_cases hij : i = j
    · subst hij
      have hmap : (s.tasks.map (Task.besides slot seat))[i]? = some (t.besides slot seat) := by
        rw [Array.getElem?_map, ht]
        rfl
      rw [hmap]
      exact Array.getElem?_setIfInBounds_self_of_lt (Array.getElem?_eq_some_iff.mp hmap).1
    · exact Array.getElem?_setIfInBounds_ne hij
  simp only [besides, historyBesides, logBesides, isTaskOf_setTask ht]
  simp only [setTask, htasks, history]

theorem besides_note (x : Entry) (hx : ∀ j, x.actor? = some j → j = i)
    (hi : s.isTaskOf slot i = false) :
    (s.note x).besides slot seat = (s.besides slot seat).note x.anonymous := by
  have hx : x.actor?.any (s.isTaskOf slot) = false := by
    cases hactor : x.actor? with
    | none => rfl
    | some j =>
        obtain rfl := hx j hactor
        exact hi
  have hown : (s.note x).isTaskOf slot = s.isTaskOf slot := rfl
  have hhist : (s.note x).history = s.history ++ [x] := history_eq_concat rfl
  have hkept : (s.note x).historyBesides slot = s.historyBesides slot ++ [x.anonymous] := by
    rw [historyBesides, historyBesides, hown, hhist, List.filter_append, List.map_append,
      List.filter_cons_of_pos (by rw [hx]; rfl)]
    rfl
  rw [besides, hkept]
  simp [note, besides]
  rfl

theorem besides_note_own (x : Entry) (hx : x.actor? = some i) (hi : s.isTaskOf slot i = true) :
    (s.note x).besides slot seat = s.besides slot seat := by
  have hown : (s.note x).isTaskOf slot = s.isTaskOf slot := rfl
  have hhist : (s.note x).history = s.history ++ [x] := history_eq_concat rfl
  have hkept : (s.note x).historyBesides slot = s.historyBesides slot := by
    rw [historyBesides, historyBesides, hown, hhist, List.filter_append,
      List.filter_cons_of_neg (by simp [hx, hi]), List.filter_nil, List.append_nil]
  rw [besides, hkept]
  rfl

theorem besides_write {line : Log.Line} (hi : s.isTaskOf slot i = false) :
    (s.write i line).besides slot seat = (s.besides slot seat).write i line := by
  have hown : (s.write i line).isTaskOf slot = s.isTaskOf slot := rfl
  have hkept : (s.write i line).logBesides slot = s.logBesides slot ++ [⟨i, line⟩] := by
    rw [logBesides, logBesides, hown, write, Array.toList_push, List.filter_append,
      List.filter_cons_of_pos (by rw [hi]; rfl)]
    rfl
  rw [besides, hkept]
  simp [write, besides]
  rfl

theorem besides_write_own {line : Log.Line} (hi : s.isTaskOf slot i = true) :
    (s.write i line).besides slot seat = s.besides slot seat := by
  have hown : (s.write i line).isTaskOf slot = s.isTaskOf slot := rfl
  have hkept : (s.write i line).logBesides slot = s.logBesides slot := by
    rw [logBesides, logBesides, hown, write, Array.toList_push, List.filter_append,
      List.filter_cons_of_neg (by rw [hi]; simp), List.filter_nil, List.append_nil]
  rw [besides, hkept]
  rfl

theorem besides_countCall : s.countCall.besides slot seat = (s.besides slot seat).countCall := rfl

theorem besides_drawNumber :
    s.drawNumber.besides slot seat = (s.besides slot seat).drawNumber := rfl

theorem besides_enrol (o : Observer) :
    (s.enrol o).besides slot seat = ((s.besides slot seat).enrol default).reseat seat := by
  have hhist : (s.enrol o).historyBesides slot = s.historyBesides slot := rfl
  have hlog : (s.enrol o).logBesides slot = s.logBesides slot := rfl
  rw [besides, hhist, hlog]
  simp [enrol, reseat, besides]

/-- What the journal and the log say, they say of tasks that are there. -/
structure Attributed (s : State) : Prop where
  entries : ∀ x ∈ s.history, ∀ i, x.actor? = some i → i < s.tasks.size
  lines : ∀ w ∈ s.log, w.writer < s.tasks.size

theorem Attributed.setTask (h : s.Attributed) : (s.setTask i t).Attributed where
  entries := by
    rw [State.setTask, Array.size_setIfInBounds]
    exact h.entries
  lines := by
    rw [State.setTask, Array.size_setIfInBounds]
    exact h.lines

theorem besides_spawn (h : s.Attributed) (t : Task) :
    (s.spawn t).besides slot seat = (s.besides slot seat).spawn (t.besides slot seat) := by
  have hhist : (s.spawn t).historyBesides slot = s.historyBesides slot := by
    refine congrArg (List.map _) (List.filter_congr ?_)
    intro x hx
    cases hactor : x.actor? with
    | none => rfl
    | some i => simp [isTaskOf_spawn (h.entries x hx i hactor)]
  have hlog : (s.spawn t).logBesides slot = s.logBesides slot := by
    refine List.filter_congr ?_
    intro w hw
    rw [isTaskOf_spawn (h.lines w (Array.mem_toList_iff.mp hw))]
  rw [besides, hhist, hlog]
  simp [spawn, besides]

/-! ## Seats -/

/-- Only a registration can put someone in a seat who is not to sit there. -/
theorem reseat_eq {m : Nat} (hs : s.observers = (List.range m).map seat) : s.reseat seat = s := by
  have hobs : (List.range s.observers.length).map seat = s.observers := by
    rw [hs]
    simp
  rw [reseat, hobs]

theorem reseat_besides : (s.besides slot seat).reseat seat = s.besides slot seat :=
  reseat_eq rfl

/-! ## Steps of other tasks -/

theorem lastLine?_seated (t : Task) : lastLine? (t.seated seat) = lastLine? t := rfl

theorem besides_finish (ht : s.tasks[i]? = some t) (hi : t.isOf slot = false) :
    (s.finish i t).besides slot seat = (s.besides slot seat).finish i (t.seated seat) := by
  have hown : (s.setTask i { t with control := .finished }).isTaskOf slot i = false := by
    rw [isTaskOf_setTask ht, isTaskOf_eq ht, hi]
  have hend : (t.seated seat).ending = t.ending := rfl
  unfold finish
  rw [hend, lastLine?_seated]
  split
  · exact besides_setTask ht hi
  · cases lastLine? t with
    | none =>
        dsimp only
        rw [besides_note (.ended i) (by simp [Entry.actor?]) hown, besides_setTask ht hi]
        rfl
    | some line =>
        dsimp only
        rw [besides_write (by exact hown), besides_note (.ended i) (by simp [Entry.actor?]) hown,
          besides_setTask ht hi]
        rfl

theorem besides_begin (ht : s.tasks[i]? = some t) (hi : t.isOf slot = false) :
    (s.begin i t).besides slot seat = (s.besides slot seat).begin i (t.seated seat) := by
  have hown : ∀ (control : Control) (todo : List Act),
      (s.setTask i ⟨t.place, t.role, control, todo, t.ending⟩).isTaskOf slot i = false := by
    intro control todo
    rw [isTaskOf_setTask ht, isTaskOf_eq ht, hi]
  have htodo : (t.seated seat).todo = t.todo.map Act.anonymous := rfl
  unfold begin
  rw [htodo]
  cases t.todo with
  | nil => exact besides_finish ht hi
  | cons act todo =>
      rw [List.map_cons]
      cases act with
      | publish e =>
          dsimp only [Act.anonymous]
          rw [besides_note (.called s.calls i e) (by simp [Entry.actor?]) (by exact hown _ _),
            besides_countCall, besides_setTask ht hi]
          rfl
      | register o =>
          dsimp only [Act.anonymous]
          rw [besides_note (.enrolling s.calls i o) (by simp [Entry.actor?]) (by exact hown _ _),
            besides_countCall, besides_setTask ht hi]
          rfl
      | write line =>
          dsimp only [Act.anonymous]
          rw [besides_write (hown _ _), besides_setTask ht hi]
          rfl
      | keep e =>
          dsimp only [Act.anonymous]
          rw [besides_note (.kept i e) (by simp [Entry.actor?]) (hown _ _), besides_setTask ht hi]
          rfl

theorem map_anonymous {acts : List Act} (h : ∀ act ∈ acts, act.isCall = false) :
    acts.map Act.anonymous = acts := by
  rw [List.map_congr_left (g := id), List.map_id]
  intro act hact
  cases act with
  | register o => exact absurd (h _ hact) (by simp [Act.isCall])
  | publish e | write l | keep e => rfl

/-- The observers keep to their seats, and their reactions do not call the bus. -/
structure Fits (slot : Nat) (seat : Nat → Observer) (s : State) : Prop where
  attributed : s.Attributed
  /-- Whoever is to be sent a copy is the one in the seat. -/
  seats : ∀ t ∈ s.tasks, ∀ p left, t.control = .sending p left → ∀ x ∈ left, x.2 ≠ slot →
    x.1 = seat x.2
  quiet : ∀ n ∈ s.notices, ∀ act ∈ (n.observer.react n.publication.event).acts,
    act.isCall = false
  /-- A notification of the slot is in no call, and is to make none. -/
  own : ∀ t ∈ s.tasks, t.isOf slot = true →
    t.control.call? = none ∧ (t.control = .ready → ∀ act ∈ t.todo, act.isCall = false)

/-- A notification that is created looks the same whoever is in the slot. -/
theorem besides_delivery (place : Place) (p : Publication) {o : Observer} {k : Nat}
    (ho : k ≠ slot → o = seat k) :
    (Task.delivery place ⟨p, k, o⟩).besides slot seat = Task.delivery place ⟨p, k, seat k⟩ := by
  by_cases hk : k = slot
  · have hown : (Task.delivery place ⟨p, k, o⟩).isOf slot = true := by
      simp [Task.isOf, Task.notice?, Task.delivery, hk]
    rw [Task.besides, if_pos hown]
    rfl
  · have hother : (Task.delivery place ⟨p, k, o⟩).isOf slot = false := by
      simp [Task.isOf, Task.notice?, Task.delivery, hk]
    rw [besides_of_other hother, ho hk]
    rfl

theorem zipIdx_seated (s : State) :
    (s.besides slot seat).observers.zipIdx = s.observers.zipIdx.map fun x => (seat x.2, x.2) := by
  apply List.ext_getElem
  · simp [besides]
  · intro k hk hk'
    simp [besides]

theorem observers_begin (i : Nat) (t : Task) (s : State) :
    (s.begin i t).observers = s.observers := by
  unfold begin
  cases t.todo with
  | nil =>
      dsimp only
      unfold finish
      split
      · rfl
      · cases lastLine? t <;> rfl
  | cons act todo => cases act <;> rfl

theorem besides_step (h : s.Fits slot seat) (hi : s.isTaskOf slot i = false) :
    (s.step i).besides slot seat = ((s.besides slot seat).step i).reseat seat := by
  unfold step
  rw [getElem?_besides]
  cases ht : s.tasks[i]? with
  | none => exact reseat_besides.symm
  | some t =>
      have hmem : t ∈ s.tasks := Array.mem_of_getElem? ht
      have hother : t.isOf slot = false := (isTaskOf_eq ht).symm.trans hi
      rw [Option.map_some, besides_of_other hother]
      dsimp only
      rcases t with ⟨place, role, control, todo, ending⟩
      have hown : ∀ (control : Control) (todo : List Act) (ending : Ending),
          (s.setTask i ⟨place, role, control, todo, ending⟩).isTaskOf slot i = false := by
        intro control todo ending
        rw [isTaskOf_setTask ht, hi]
      cases control with
      | waiting =>
          cases role with
          | caller =>
              dsimp only [Task.seated, Control.seated]
              rw [besides_setTask ht hother]
              exact Eq.symm (reseat_eq rfl)
          | delivery n =>
              have hn : n ∈ s.notices := mem_notices.mpr ⟨_, hmem, rfl⟩
              dsimp only [Task.seated, Control.seated]
              rw [besides_note (.started i) (by simp [Entry.actor?]) (hown _ _ _),
                besides_setTask ht hother, map_anonymous (h.quiet n hn)]
              exact Eq.symm (reseat_eq rfl)
      | ready =>
          dsimp only [Task.seated, Control.seated]
          rw [besides_begin ht hother, reseat_eq (observers_begin _ _ _)]
          rfl
      | called call e =>
          dsimp only [Task.seated, Control.seated]
          rw [besides_note (.numbered _) (by simp [Entry.actor?]) (by exact hown _ _ _),
            besides_setTask (s := s.drawNumber) ht hother, besides_drawNumber]
          exact Eq.symm (reseat_eq rfl)
      | numbered p =>
          dsimp only [Task.seated, Control.seated]
          rw [apply_ite (besides slot seat), besides_write (by exact hown _ _ _),
            besides_setTask ht hother]
          refine Eq.trans (ite_congr rfl (fun _ => ?_) (fun _ => ?_))
            (apply_ite (reseat seat) _ _ _).symm
          · exact Eq.symm (reseat_eq rfl)
          · exact Eq.symm (reseat_eq rfl)
      | traced p =>
          dsimp only [Task.seated, Control.seated]
          rw [besides_note (.listed _ _) (by simp [Entry.actor?]) (hown _ _ _),
            besides_setTask ht hother, zipIdx_seated, List.length_map]
          exact Eq.symm (reseat_eq rfl)
      | sending p left =>
          cases left with
          | nil =>
              dsimp only [Task.seated, Control.seated, List.map_nil]
              rw [besides_note (.returned p) (by simp [Entry.actor?]) (hown _ _ _),
                besides_setTask ht hother]
              exact Eq.symm (reseat_eq rfl)
          | cons first left =>
              obtain ⟨o, k⟩ := first
              have ho : k ≠ slot → o = seat k :=
                h.seats _ hmem p _ rfl (o, k) List.mem_cons_self
              have hlt :
                  i < (s.setTask i ⟨place, role, .sending p left, todo, ending⟩).tasks.size := by
                simpa [setTask] using lt_size_of_getElem? ht
              dsimp only [Task.seated, Control.seated]
              rw [List.map_cons]
              dsimp only
              rw [besides_note (.sent _ _ _) (by simp [Entry.actor?])
                  ((isTaskOf_spawn hlt).trans (hown _ _ _)),
                besides_spawn h.attributed.setTask, besides_delivery _ _ ho,
                besides_setTask ht hother]
              have hsize : ∀ u v : Task, ((s.besides slot seat).setTask i u).tasks.size =
                  (s.setTask i v).tasks.size := by
                simp [setTask, besides]
              rw [hsize _ ⟨place, role, .sending p left, todo, ending⟩]
              exact Eq.symm (reseat_eq rfl)
      | enrolling call o =>
          dsimp only [Task.seated, Control.seated]
          rw [besides_note (.enrolled _ _) (by simp [Entry.actor?]) (by exact hown _ _ _),
            besides_setTask (s := s.enrol o) ht hother, besides_enrol]
          have hlen : (s.besides slot seat).observers.length = s.observers.length := by
            simp [besides]
          rw [hlen]
          rfl
      | enrolled call slot' =>
          dsimp only [Task.seated, Control.seated]
          rw [besides_note (.registered call slot') (by simp [Entry.actor?]) (hown _ _ _),
            besides_setTask ht hother]
          exact Eq.symm (reseat_eq rfl)
      | pending | finished => exact reseat_besides.symm

/-! ## Steps of the slot's own notifications -/

/-- A step of a notification of the slot leaves no trace. -/
theorem Step.besides_eq (hstep : Step i s s') (h : s.Fits slot seat)
    (hi : s.isTaskOf slot i = true) : s'.besides slot seat = s.besides slot seat := by
  have own : ∀ {t : Task}, s.tasks[i]? = some t → t.isOf slot = true :=
    fun ht => (isTaskOf_eq ht).symm.trans hi
  have idle : ∀ {t : Task}, s.tasks[i]? = some t → t.control.call? = none :=
    fun ht => (h.own _ (Array.mem_of_getElem? ht) (own ht)).1
  have silent : ∀ {t : Task}, s.tasks[i]? = some t → t.control = .ready →
      ∀ act ∈ t.todo, act.isCall = false :=
    fun ht => (h.own _ (Array.mem_of_getElem? ht) (own ht)).2
  have still : ∀ {t : Task} (control : Control) (todo : List Act) (ending : Ending),
      s.tasks[i]? = some t →
      (s.setTask i ⟨t.place, t.role, control, todo, ending⟩).isTaskOf slot i = true := by
    intro t control todo ending ht
    rw [isTaskOf_setTask ht, hi]
  cases hstep with
  | idle => rfl
  | opened t ht hc hr =>
      have := own ht
      rw [Task.isOf, Task.notice?, hr] at this
      cases this
  | started t n reaction ht =>
      exact (besides_note_own (.started i) rfl (still _ _ _ ht)).trans
        (besides_setTask_own ht (own ht))
  | stayed t ht => exact besides_setTask_own ht (own ht)
  | ended t ht =>
      have hended :
          ((s.setTask i { t with control := .finished }).note (.ended i)).besides slot seat =
            s.besides slot seat :=
        (besides_note_own (.ended i) rfl (still _ _ _ ht)).trans (besides_setTask_own ht (own ht))
      cases lastLine? t with
      | none =>
          simp only [Option.map_none, Option.toArray_none, Array.append_empty]
          exact hended
      | some line =>
          simp only [Option.map_some, Option.toArray_some, Array.append_singleton]
          exact (besides_write_own (by exact still _ _ _ ht)).trans hended
  | called t e todo ht hc htodo | enrolling t o todo ht hc htodo =>
      have := silent ht hc _ (by rw [htodo]; exact List.mem_cons_self)
      cases this
  | written t line todo ht =>
      exact (besides_write_own (still _ _ _ ht)).trans (besides_setTask_own ht (own ht))
  | kept t e todo ht =>
      exact (besides_note_own (.kept i e) rfl (still _ _ _ ht)).trans
        (besides_setTask_own ht (own ht))
  | numbered t call e p ht hc | traced t p ht hc | listed t p ht hc | returned t p ht hc
  | sent t p o k left ht hc | enrolled t call o ht hc | registered t call k ht hc =>
      have := idle ht
      rw [hc] at this
      cases this

end State

end FlowEvents.Bus
