import FlowEvents.Proofs.Bus.Settling

/-! # One publish at a time

A sequential execution publishes from one thread and lets every notification run to completion
before it publishes again.  For observers that neither publish nor register there is one: the caller
and the notifications take turns, and between any two steps of the caller all notifications that
have been created are over.
-/

namespace FlowEvents.Bus

/-- The reaction does not call the bus, and comes to an end. -/
def Reaction.Quiet (r : Reaction) : Prop :=
  (∀ act ∈ r.acts, act.isCall = false) ∧ r.ending ≠ .pending

namespace State

/-- A publish is called only when every notification created before is over. -/
def OneAtATime (s : State) : Prop :=
  ∀ n c j e, s.history[n]? = some (.called c j e) →
    ∀ p slot task, .sent p slot task ∈ s.history.take n → .ended task ∈ s.history.take n

/-- Some schedule leads from one state to the other. -/
def Leads (s s' : State) : Prop :=
  ∃ schedule, s.run schedule = s'

variable {s s' : State} {i : Nat} {place : Place} {control control' : Control}
  {todo todo' : List Act}

theorem Leads.refl (s : State) : Leads s s :=
  ⟨[], rfl⟩

theorem Leads.step (s : State) (i : Nat) : Leads s (s.step i) :=
  ⟨[i], rfl⟩

theorem Leads.trans {s'' : State} (h : Leads s s') (h' : Leads s' s'') : Leads s s'' := by
  obtain ⟨first, rfl⟩ := h
  obtain ⟨second, rfl⟩ := h'
  exact ⟨first ++ second, run_append first second s⟩

theorem Leads.coherent (h : Leads s s') (hco : s.Coherent) : s'.Coherent := by
  obtain ⟨schedule, rfl⟩ := h
  induction schedule generalizing s with
  | nil => exact hco
  | cons i schedule ih => exact ih (hco.of_step (step_spec i s))

/-! ## A notification runs to completion -/

/-- Task `i` has run to completion, and nothing else has happened. -/
structure Completed (s s' : State) (i : Nat) : Prop where
  leads : Leads s s'
  tasks : ∃ u : Task, u.control = .finished ∧ s'.tasks = s.tasks.setIfInBounds i u
  history : ∃ entries, (∀ x ∈ entries, x.call? = none) ∧
    s'.history = s.history ++ entries ++ [.ended i]
  observers : s'.observers = s.observers

/-- A step of the task ahead of the rest. -/
theorem Completed.prepend (h : Completed (s.step i) s' i) (front : List Entry) {t : Task}
    (htasks : (s.step i).tasks = s.tasks.setIfInBounds i t)
    (hhist : (s.step i).history = s.history ++ front) (hfront : ∀ x ∈ front, x.call? = none)
    (hobs : (s.step i).observers = s.observers) : Completed s s' i where
  leads := (Leads.step s i).trans h.leads
  tasks := by
    obtain ⟨u, hu, hset⟩ := h.tasks
    refine ⟨u, hu, ?_⟩
    rw [hset, htasks]
    exact Array.setIfInBounds_setIfInBounds _
  history := by
    obtain ⟨entries, hnone, hentries⟩ := h.history
    refine ⟨front ++ entries, ?_, ?_⟩
    · intro x hx
      rcases List.mem_append.mp hx with hx | hx
      · exact hfront x hx
      · exact hnone x hx
    · rw [hentries, hhist, List.append_assoc s.history]
  observers := h.observers.trans hobs

theorem exists_completed {t : Task} (ht : s.tasks[i]? = some t) (hc : t.control = .ready)
    (hacts : ∀ act ∈ t.todo, act.isCall = false) (hend : t.ending ≠ .pending) :
    ∃ s', Completed s s' i := by
  obtain ⟨place, role, control, todo, ending⟩ := t
  obtain rfl : control = .ready := hc
  -- the induction is on the acts still to come, of which each step takes one
  induction todo generalizing s with
  | nil =>
      have hstep : s.step i = s.finish i ⟨place, role, .ready, [], ending⟩ := by
        rw [State.step, ht]
        rfl
      rw [finish, if_neg hend] at hstep
      refine ⟨s.step i, Leads.step s i, ⟨⟨place, role, .finished, [], ending⟩, rfl, ?_⟩,
        ⟨[], by simp, ?_⟩, ?_⟩
      all_goals
        rw [hstep]
        cases lastLine? ⟨place, role, .ready, [], ending⟩ <;> simp [setTask, note, write, history]
  | cons act todo ih =>
      have hlt := lt_size_of_getElem? ht
      have hrest : ∀ act ∈ todo, act.isCall = false :=
        fun act hact => hacts act (List.mem_cons_of_mem _ hact)
      cases act with
      | publish e | register o => exact absurd (hacts _ List.mem_cons_self) (by simp [Act.isCall])
      | write line =>
          have hstep : s.step i =
              (s.setTask i ⟨place, role, .ready, todo, ending⟩).write i line := by
            rw [State.step, ht]
            rfl
          obtain ⟨s', hdone⟩ := ih (s := s.step i)
            (by rw [hstep]; exact Array.getElem?_setIfInBounds_self_of_lt hlt) hrest hend
          refine ⟨s', hdone.prepend [] (congrArg State.tasks hstep) ?_ ?_ ?_⟩
          · rw [hstep, List.append_nil]
            rfl
          · simp
          · rw [hstep]
            rfl
      | keep e =>
          have hstep : s.step i =
              (s.setTask i ⟨place, role, .ready, todo, ending⟩).note (.kept i e) := by
            rw [State.step, ht]
            rfl
          obtain ⟨s', hdone⟩ := ih (s := s.step i)
            (by rw [hstep]; exact Array.getElem?_setIfInBounds_self_of_lt hlt) hrest hend
          refine ⟨s', hdone.prepend [.kept i e] (congrArg State.tasks hstep) ?_ ?_ ?_⟩
          · rw [hstep]
            exact history_eq_concat rfl
          · simp [Entry.call?]
          · rw [hstep]
            rfl

/-- A notification that has not begun begins and runs to completion. -/
theorem exists_completed_delivery {n : Notice} (ht : s.tasks[i]? = some (Task.delivery place n))
    (hquiet : (n.observer.react n.publication.event).Quiet) : ∃ s', Completed s s' i := by
  have hlt := lt_size_of_getElem? ht
  have hstep : s.step i = (s.setTask i ⟨place, .delivery n, .ready,
      (n.observer.react n.publication.event).acts,
      (n.observer.react n.publication.event).ending⟩).note (.started i) := by
    rw [State.step, ht]
    rfl
  obtain ⟨s', hdone⟩ := exists_completed (s := s.step i)
    (by rw [hstep]; exact Array.getElem?_setIfInBounds_self_of_lt hlt) rfl hquiet.1 hquiet.2
  refine ⟨s', hdone.prepend [.started i] (congrArg State.tasks hstep) ?_ ?_ ?_⟩
  · rw [hstep]
    exact history_eq_concat rfl
  · simp [Entry.call?]
  · rw [hstep]
    rfl

/-! ## The caller among notifications that are over -/

/-- Task 0 is the only one that is not over, and the execution was sequential so far. -/
structure Alone (s : State) (place : Place) (control : Control) (todo : List Act) : Prop where
  caller : s.tasks[0]? = some ⟨place, .caller, control, todo, .returned⟩
  others : ∀ i t, s.tasks[i]? = some t → i ≠ 0 → t.control = .finished
  thread : ∀ c j e, .called c j e ∈ s.history → j = 0
  ended : ∀ p slot task, .sent p slot task ∈ s.history → .ended task ∈ s.history
  oneAtATime : s.OneAtATime
  registeredFirst : s.RegisteredFirst

/-- Entries of which at most the first is a call, and which leave no notification behind. -/
theorem Alone.extend (h : Alone s place control todo) {entries : List Entry}
    (hcaller : s'.tasks[0]? = some ⟨place, .caller, control', todo', .returned⟩)
    (hover : ∀ i t, s'.tasks[i]? = some t → i ≠ 0 → t.control = .finished)
    (hhist : s'.history = s.history ++ entries)
    (hfirst : ∀ c j e, .called c j e ∉ entries.tail)
    (hthread : ∀ c j e, .called c j e ∈ entries → j = 0)
    (hended : ∀ p slot task, .sent p slot task ∈ entries → .ended task ∈ entries)
    (hslots : ∀ c j e call slot, .called c j e ∈ s'.history → .enrolled call slot ∉ entries) :
    Alone s' place control' todo' where
  caller := hcaller
  others := hover
  thread := by
    intro c j e hmem
    rw [hhist, List.mem_append] at hmem
    rcases hmem with hmem | hmem
    · exact h.thread c j e hmem
    · exact hthread c j e hmem
  ended := by
    intro p slot task hmem
    rw [hhist, List.mem_append] at hmem ⊢
    rcases hmem with hmem | hmem
    · exact .inl (h.ended p slot task hmem)
    · exact .inr (hended p slot task hmem)
  oneAtATime := by
    intro n c j e hn p slot task hsent
    rw [hhist] at hn hsent ⊢
    by_cases hlt : n < s.history.length
    · rw [List.getElem?_append_left hlt] at hn
      rw [List.take_append_of_le_length (Nat.le_of_lt hlt)] at hsent ⊢
      exact h.oneAtATime n c j e hn p slot task hsent
    · rw [List.getElem?_append_right (Nat.le_of_not_lt hlt)] at hn
      -- the call is the first of the new entries
      have hzero : n - s.history.length = 0 := by
        by_contra hne
        obtain ⟨k, hk⟩ := Nat.exists_eq_succ_of_ne_zero hne
        rw [hk, ← List.getElem?_tail] at hn
        exact hfirst c j e (List.mem_of_getElem? hn)
      obtain rfl : n = s.history.length := by omega
      rw [List.take_append_of_le_length (Nat.le_refl _), List.take_length] at hsent ⊢
      exact h.ended p slot task hsent
  registeredFirst := by
    intro c j e call slot hprecedes
    have hcalled := hprecedes.mem_left
    rw [hhist] at hprecedes
    exact h.registeredFirst c j e call slot
      (hprecedes.of_append (hslots c j e call slot hcalled))

theorem Alone.set_caller (h : Alone s place control todo)
    (htasks : s'.tasks = s.tasks.setIfInBounds 0 ⟨place, .caller, control', todo', .returned⟩) :
    s'.tasks[0]? = some ⟨place, .caller, control', todo', .returned⟩ ∧
      ∀ i t, s'.tasks[i]? = some t → i ≠ 0 → t.control = .finished := by
  constructor
  · rw [htasks]
    exact Array.getElem?_setIfInBounds_self_of_lt (lt_size_of_getElem? h.caller)
  · intro i t ht hi
    exact h.others i t (getElem?_of_ne htasks hi ht) hi

/-- A step of the caller that makes an entry but neither creates a notification nor takes a slot. -/
theorem Alone.advance (h : Alone s place control todo) {x : Entry}
    (htasks : s'.tasks = s.tasks.setIfInBounds 0 ⟨place, .caller, control', todo', .returned⟩)
    (hhist : s'.history = s.history ++ [x]) (hcalled : ∀ c j e, x = .called c j e → j = 0)
    (hsent : ∀ p slot task, x ≠ .sent p slot task) (hslot : ∀ call slot, x ≠ .enrolled call slot) :
    Alone s' place control' todo' := by
  obtain ⟨hcaller, hover⟩ := h.set_caller htasks
  refine h.extend hcaller hover hhist ?_ ?_ ?_ ?_
  · simp
  · intro c j e hmem
    exact hcalled c j e (List.mem_singleton.mp hmem).symm
  · intro p slot task hmem
    exact absurd (List.mem_singleton.mp hmem).symm (hsent p slot task)
  · intro c j e call slot _ hmem
    exact hslot call slot (List.mem_singleton.mp hmem).symm

theorem Alone.silent (h : Alone s place control todo)
    (htasks : s'.tasks = s.tasks.setIfInBounds 0 ⟨place, .caller, control', todo', .returned⟩)
    (hhist : s'.history = s.history) : Alone s' place control' todo' := by
  obtain ⟨hcaller, hover⟩ := h.set_caller htasks
  have hnil : s'.history = s.history ++ [] := by rw [hhist, List.append_nil]
  refine h.extend hcaller hover hnil ?_ ?_ ?_ ?_
  all_goals simp

/-- The same, with what else is seen of the step. -/
theorem Alone.noted (h : Alone s place control todo) {mid : State} {x : Entry}
    (hstep : s.step 0 = mid.note x)
    (htasks : mid.tasks = s.tasks.setIfInBounds 0 ⟨place, .caller, control', todo', .returned⟩)
    (hjournal : mid.journal = s.journal) (hcalled : ∀ c j e, x = .called c j e → j = 0)
    (hsent : ∀ p slot task, x ≠ .sent p slot task) (hslot : ∀ call slot, x ≠ .enrolled call slot) :
    Alone (s.step 0) place control' todo' ∧ (s.step 0).observers = mid.observers ∧
      (s.step 0).publications = s.publications ++ x.publication?.toList ∧
        (s.step 0).history = s.history ++ [x] := by
  have hhist : (s.step 0).history = s.history ++ [x] := by
    rw [hstep]
    exact history_eq_concat (congrArg (·.push x) hjournal)
  refine ⟨h.advance ?_ hhist hcalled hsent hslot, ?_, publications_concat hhist, hhist⟩
  · rw [hstep]
    exact htasks
  · rw [hstep]
    rfl

/-! ## Sending -/

/-- Nothing about a call. -/
theorem publications_append {entries : List Entry} (h : s'.history = s.history ++ entries)
    (hnone : entries.filterMap Entry.publication? = []) : s'.publications = s.publications := by
  have heq : s'.publications = s'.history.filterMap Entry.publication? := rfl
  rw [heq, h, List.filterMap_append, hnone, List.append_nil]
  rfl

/-- A publish creates a notification, which runs to completion. -/
theorem Alone.exists_sent {p : Publication} {o : Observer} {slot : Nat}
    {left : List (Observer × Nat)} (h : Alone s place (.sending p ((o, slot) :: left)) todo)
    (hquiet : (o.react p.event).Quiet) :
    ∃ s', Leads s s' ∧ Alone s' place (.sending p left) todo ∧ s'.observers = s.observers ∧
      s'.publications = s.publications := by
  have hstep : s.step 0 = ((s.setTask 0 ⟨place, .caller, .sending p left, todo, .returned⟩).spawn
      (Task.delivery (place.forNotice s.home) ⟨p, slot, o⟩)).note (.sent p slot s.tasks.size) := by
    rw [State.step, h.caller]
    simp [setTask]
  have hpos : 0 < s.tasks.size := lt_size_of_getElem? h.caller
  have htasks : (s.step 0).tasks =
      (s.tasks.setIfInBounds 0 ⟨place, .caller, .sending p left, todo, .returned⟩).push
        (Task.delivery (place.forNotice s.home) ⟨p, slot, o⟩) := by
    rw [hstep]
    rfl
  have hhist : (s.step 0).history = s.history ++ [.sent p slot s.tasks.size] := by
    rw [hstep]
    exact history_eq_concat rfl
  have hnew : (s.step 0).tasks[s.tasks.size]? =
      some (Task.delivery (place.forNotice s.home) ⟨p, slot, o⟩) := by
    rw [htasks, Array.getElem?_push, if_pos (by simp)]
  obtain ⟨s', hleads, ⟨u, hu, hset⟩, ⟨entries, hnone, hentries⟩, hobs⟩ :=
    exists_completed_delivery hnew hquiet
  -- between the sending and the end nothing is said about any call
  have hall : s'.history =
      s.history ++ (.sent p slot s.tasks.size :: entries ++ [.ended s.tasks.size]) := by
    rw [hentries, hhist]
    simp
  have habsent : ∀ x ∈ entries ++ [.ended s.tasks.size], x.call? = none := by
    intro x hx
    rcases List.mem_append.mp hx with hx | hx
    · exact hnone x hx
    · rw [List.mem_singleton.mp hx]
      rfl
  refine ⟨s', (Leads.step s 0).trans hleads, ?_, ?_, ?_⟩
  · refine h.extend ?_ ?_ hall ?_ ?_ ?_ ?_
    · rw [hset, Array.getElem?_setIfInBounds_ne (Nat.ne_of_gt hpos), htasks,
        Array.getElem?_push_lt (by simpa using hpos)]
      simp
    · intro i t ht hi
      by_cases hn : i = s.tasks.size
      · subst hn
        rw [getElem?_self hnew hset ht]
        exact hu
      · have ht := getElem?_of_ne hset hn ht
        rw [htasks] at ht
        have hpushed :=
          getElem?_push (s := s.setTask 0 ⟨place, .caller, .sending p left, todo, .returned⟩) ht
        rcases hpushed with ht | ⟨hsize, -⟩
        · exact h.others i t (getElem?_of_ne (s := s) rfl hi ht) hi
        · exact absurd (hsize.trans (by simp [setTask])) hn
    · intro c j e hmem
      cases habsent _ hmem
    · intro c j e hmem
      rcases List.mem_cons.mp hmem with hmem | hmem
      · cases hmem
      · cases habsent _ hmem
    · intro q k task hmem
      rcases List.mem_cons.mp hmem with hmem | hmem
      · obtain ⟨-, -, rfl⟩ := Entry.sent.inj hmem
        simp
      · cases habsent _ hmem
    · intro c j e call k _ hmem
      rcases List.mem_cons.mp hmem with hmem | hmem
      · cases hmem
      · cases habsent _ hmem
  · rw [hobs, hstep]
    rfl
  · refine publications_append hall ?_
    rw [List.filterMap_eq_nil_iff]
    intro x hx
    rcases List.mem_cons.mp hx with rfl | hx
    · rfl
    · cases x with
      | numbered q => cases habsent _ hx
      | _ => rfl

theorem Alone.exists_sent_all {p : Publication} {left : List (Observer × Nat)}
    (h : Alone s place (.sending p left) todo)
    (hquiet : ∀ x ∈ left, (x.1.react p.event).Quiet) :
    ∃ s', Leads s s' ∧ Alone s' place (.sending p []) todo ∧ s'.observers = s.observers ∧
      s'.publications = s.publications := by
  induction left generalizing s with
  | nil => exact ⟨s, Leads.refl s, h, rfl, rfl⟩
  | cons x left ih =>
      obtain ⟨mid, hlead, hmid, hobs, hpubs⟩ := h.exists_sent (hquiet x List.mem_cons_self)
      obtain ⟨s', hlead', h', hobs', hpubs'⟩ :=
        ih hmid fun y hy => hquiet y (List.mem_cons_of_mem _ hy)
      exact ⟨s', hlead.trans hlead', h', hobs'.trans hobs, hpubs'.trans hpubs⟩

/-! ## A publish from the call to the return -/

theorem Alone.step_call {e : Event} (h : Alone s place .ready (.publish e :: todo)) :
    Alone (s.step 0) place (.called s.calls e) todo ∧ (s.step 0).observers = s.observers ∧
      (s.step 0).publications = s.publications ∧ (s.step 0).issued = s.issued := by
  have hstep : s.step 0 = (s.setTask 0 ⟨place, .caller, .called s.calls e, todo,
      .returned⟩).countCall.note (.called s.calls 0 e) := by
    rw [State.step, h.caller]
    rfl
  have hfirst : ∀ c j e', Entry.called s.calls 0 e = .called c j e' → j = 0 := by
    intro c j e' heq
    exact (Entry.called.inj heq).2.1.symm
  obtain ⟨halone, hobs, hpubs, -⟩ := h.noted hstep rfl rfl hfirst (by simp) (by simp)
  refine ⟨halone, hobs, ?_, ?_⟩
  · rw [hpubs]
    exact List.append_nil _
  · rw [hstep]
    rfl

theorem Alone.step_number {c : Nat} {e : Event} (h : Alone s place (.called c e) todo) :
    ∃ p : Publication, p.event = { e with id := UInt64.ofNat (s.issued + 1) } ∧
      Alone (s.step 0) place (.numbered p) todo ∧ (s.step 0).observers = s.observers ∧
        (s.step 0).publications = s.publications ++ [p] := by
  obtain ⟨p, hp⟩ : ∃ p : Publication,
      p = ⟨c, 0, s.issued + 1, { e with id := UInt64.ofNat (s.issued + 1) }⟩ := ⟨_, rfl⟩
  have hstep : s.step 0 = (s.drawNumber.setTask 0 ⟨place, .caller, .numbered p, todo,
      .returned⟩).note (.numbered p) := by
    rw [State.step, h.caller, hp]
  obtain ⟨halone, hobs, hpubs, -⟩ := h.noted hstep rfl rfl (by simp) (by simp) (by simp)
  exact ⟨p, by rw [hp], halone, hobs, hpubs⟩

theorem Alone.step_trace {p : Publication} (h : Alone s place (.numbered p) todo) :
    Alone (s.step 0) place (.traced p) todo ∧ (s.step 0).observers = s.observers ∧
      (s.step 0).publications = s.publications := by
  have hstep : s.step 0 = if s.config.announces p.event.tag then
      (s.setTask 0 ⟨place, .caller, .traced p, todo, .returned⟩).write 0 p.event.publishLine
        else s.setTask 0 ⟨place, .caller, .traced p, todo, .returned⟩ := by
    rw [State.step, h.caller]
    rfl
  have hhist : (s.step 0).history = s.history := by
    rw [hstep]
    split <;> rfl
  refine ⟨h.silent ?_ hhist, ?_, ?_⟩
  · rw [hstep]
    split <;> rfl
  · rw [hstep]
    split <;> rfl
  · exact congrArg (List.filterMap Entry.publication?) hhist

theorem Alone.step_list {p : Publication} (h : Alone s place (.traced p) todo) :
    Alone (s.step 0) place (.sending p s.observers.zipIdx) todo ∧
      (s.step 0).observers = s.observers ∧ (s.step 0).publications = s.publications := by
  have hstep : s.step 0 = (s.setTask 0 ⟨place, .caller, .sending p s.observers.zipIdx, todo,
      .returned⟩).note (.listed p s.observers.zipIdx.length) := by
    rw [State.step, h.caller]
  obtain ⟨halone, hobs, hpubs, -⟩ := h.noted hstep rfl rfl (by simp) (by simp) (by simp)
  refine ⟨halone, hobs, ?_⟩
  rw [hpubs]
  exact List.append_nil _

theorem Alone.step_return {p : Publication} (h : Alone s place (.sending p []) todo) :
    Alone (s.step 0) place .ready todo ∧ (s.step 0).observers = s.observers ∧
      (s.step 0).publications = s.publications ∧ .returned p ∈ (s.step 0).history := by
  have hstep : s.step 0 = (s.setTask 0 ⟨place, .caller, .ready, todo, .returned⟩).note
      (.returned p) := by
    rw [State.step, h.caller]
  obtain ⟨halone, hobs, hpubs, hhist⟩ := h.noted hstep rfl rfl (by simp) (by simp) (by simp)
  refine ⟨halone, hobs, ?_, ?_⟩
  · rw [hpubs]
    exact List.append_nil _
  · rw [hhist]
    exact List.mem_concat_self

/-- A publish comes to its end before anything else happens. -/
theorem Alone.exists_published {e : Event} (h : Alone s place .ready (.publish e :: todo))
    (hquiet : ∀ o ∈ s.observers,
      (o.react { e with id := UInt64.ofNat (s.issued + 1) }).Quiet) :
    ∃ s' p, Leads s s' ∧ Alone s' place .ready todo ∧ s'.observers = s.observers ∧
      s'.publications = s.publications ++ [p] ∧
        p.event = { e with id := UInt64.ofNat (s.issued + 1) } ∧ .returned p ∈ s'.history := by
  obtain ⟨h₁, hobs₁, hpubs₁, hissued⟩ := h.step_call
  obtain ⟨p, hp, h₂, hobs₂, hpubs₂⟩ := h₁.step_number
  obtain ⟨h₃, hobs₃, hpubs₃⟩ := h₂.step_trace
  obtain ⟨h₄, hobs₄, hpubs₄⟩ := h₃.step_list
  -- nobody registers in between, so those who are listed were there when the publish was called
  have hlisted := hobs₃.trans (hobs₂.trans hobs₁)
  rw [hissued] at hp
  obtain ⟨s₅, hlead, h₅, hobs₅, hpubs₅⟩ := h₄.exists_sent_all fun x hx => by
    rw [hlisted] at hx
    rw [hp]
    exact hquiet x.1 (List.fst_mem_of_mem_zipIdx hx)
  obtain ⟨h₆, hobs₆, hpubs₆, hret⟩ := h₅.step_return
  refine ⟨s₅.step 0, p, ?_, h₆, ?_, ?_, hp, hret⟩
  · exact ((((Leads.step s 0).trans (Leads.step _ 0)).trans (Leads.step _ 0)).trans
      (Leads.step _ 0)).trans (hlead.trans (Leads.step s₅ 0))
  · rw [hobs₆, hobs₅, hobs₄, hlisted]
  · rw [hpubs₆, hpubs₅, hpubs₄, hpubs₃, hpubs₂, hpubs₁]

theorem Leads.history_grows (h : Leads s s') : s.history <+: s'.history := by
  obtain ⟨schedule, rfl⟩ := h
  rw [run_eq_play]
  exact history_prefix_play _ s

/-- The events are published one after another; they carry the ids that they are to get. -/
theorem Alone.exists_published_all {events : List Event}
    (h : Alone s place .ready (events.map .publish)) (hco : s.Coherent)
    (hids : ∀ k e, events[k]? = some e → e.id = UInt64.ofNat (s.issued + k + 1))
    (hquiet : ∀ o ∈ s.observers, ∀ e ∈ events, (o.react e).Quiet)
    (hret : ∀ p ∈ s.publications, .returned p ∈ s.history) :
    ∃ s', Leads s s' ∧ Alone s' place .ready [] ∧ s'.observers = s.observers ∧
      s'.publications.map (·.event) = s.publications.map (·.event) ++ events ∧
        ∀ p ∈ s'.publications, .returned p ∈ s'.history := by
  induction events generalizing s with
  | nil => exact ⟨s, Leads.refl s, h, rfl, (List.append_nil _).symm, hret⟩
  | cons e events ih =>
      -- the event carries the id already that it gets, so what is sent is the event itself
      have hid : { e with id := UInt64.ofNat (s.issued + 1) } = e := by
        rw [← hids 0 e rfl]
      obtain ⟨mid, p, hlead, hmid, hobs, hpubs, hp, hpret⟩ := h.exists_published fun o ho => by
        rw [hid]
        exact hquiet o ho e List.mem_cons_self
      rw [hid] at hp
      have hmidco := hlead.coherent hco
      have hissued : mid.issued = s.issued + 1 := by
        rw [← hmidco.length_publications, ← hco.length_publications, hpubs, List.length_append,
          List.length_singleton]
      obtain ⟨s', hlead', h', hobs', hpubs', hret'⟩ := ih hmid hmidco
        (fun k e' he' => by
          rw [hissued, Nat.add_right_comm s.issued 1 k]
          exact hids (k + 1) e' he')
        (fun o ho e' he' => hquiet o (hobs ▸ ho) e' (List.mem_cons_of_mem _ he'))
        (fun q hq => by
          rw [hpubs, List.mem_append, List.mem_singleton] at hq
          rcases hq with hq | rfl
          · exact hlead.history_grows.subset (hret q hq)
          · exact hpret)
      refine ⟨s', hlead.trans hlead', h', hobs'.trans hobs, ?_, hret'⟩
      rw [hpubs', hpubs, List.map_append, List.map_singleton, hp, List.append_assoc,
        List.singleton_append]

/-! ## Registrations before the first publish -/

theorem Alone.step_register {o : Observer} (h : Alone s place .ready (.register o :: todo)) :
    ∃ c, Alone (s.step 0) place (.enrolling c o) todo ∧ (s.step 0).observers = s.observers ∧
      (s.step 0).history = s.history ++ [.enrolling c 0 o] := by
  have hstep : s.step 0 = (s.setTask 0 ⟨place, .caller, .enrolling s.calls o, todo,
      .returned⟩).countCall.note (.enrolling s.calls 0 o) := by
    rw [State.step, h.caller]
    rfl
  obtain ⟨halone, hobs, -, hhist⟩ := h.noted hstep rfl rfl (by simp) (by simp) (by simp)
  exact ⟨s.calls, halone, hobs, hhist⟩

theorem Alone.step_enrol {o : Observer} {c : Nat} (h : Alone s place (.enrolling c o) todo)
    (hnone : ∀ c j e, .called c j e ∉ s.history) :
    ∃ slot, Alone (s.step 0) place (.enrolled c slot) todo ∧
      (s.step 0).observers = s.observers ++ [o] ∧
        (s.step 0).history = s.history ++ [.enrolled c slot] := by
  have hstep : s.step 0 = ((s.enrol o).setTask 0 ⟨place, .caller,
      .enrolled c s.observers.length, todo, .returned⟩).note (.enrolled c s.observers.length) := by
    rw [State.step, h.caller]
  have hhist : (s.step 0).history = s.history ++ [.enrolled c s.observers.length] := by
    rw [hstep]
    exact history_eq_concat rfl
  have htasks : (s.step 0).tasks = s.tasks.setIfInBounds 0
      ⟨place, .caller, .enrolled c s.observers.length, todo, .returned⟩ :=
    congrArg State.tasks hstep
  obtain ⟨hcaller, hover⟩ := h.set_caller htasks
  refine ⟨s.observers.length, h.extend hcaller hover hhist ?_ ?_ ?_ ?_, ?_, hhist⟩
  · simp
  · simp
  · simp
  -- a slot may be taken because nothing has been published so far
  · intro c' j e call slot hcalled
    rw [hhist] at hcalled
    simp [hnone] at hcalled
  · rw [hstep]
    rfl

theorem Alone.step_registered {c slot : Nat} (h : Alone s place (.enrolled c slot) todo) :
    Alone (s.step 0) place .ready todo ∧ (s.step 0).observers = s.observers ∧
      (s.step 0).history = s.history ++ [.registered c slot] := by
  have hstep : s.step 0 = (s.setTask 0 ⟨place, .caller, .ready, todo, .returned⟩).note
      (.registered c slot) := by
    rw [State.step, h.caller]
  obtain ⟨halone, hobs, -, hhist⟩ := h.noted hstep rfl rfl (by simp) (by simp) (by simp)
  exact ⟨halone, hobs, hhist⟩

theorem Alone.exists_registered {o : Observer} (h : Alone s place .ready (.register o :: todo))
    (hnone : ∀ c j e, .called c j e ∉ s.history) :
    ∃ s', Leads s s' ∧ Alone s' place .ready todo ∧ s'.observers = s.observers ++ [o] ∧
      s'.publications = s.publications ∧ ∀ c j e, .called c j e ∉ s'.history := by
  obtain ⟨c, h₁, hobs₁, hhist₁⟩ := h.step_register
  have hnone₁ : ∀ c j e, .called c j e ∉ (s.step 0).history := by
    rw [hhist₁]
    simp [hnone]
  obtain ⟨slot, h₂, hobs₂, hhist₂⟩ := h₁.step_enrol hnone₁
  obtain ⟨h₃, hobs₃, hhist₃⟩ := h₂.step_registered
  refine ⟨((s.step 0).step 0).step 0, ?_, h₃, ?_, ?_, ?_⟩
  · exact ((Leads.step s 0).trans (Leads.step _ 0)).trans (Leads.step _ 0)
  · rw [hobs₃, hobs₂, hobs₁]
  · rw [publications_concat hhist₃, publications_concat hhist₂, publications_concat hhist₁]
    simp [Entry.publication?]
  · rw [hhist₃, hhist₂]
    simp [hnone₁]

theorem Alone.exists_registered_all {observers : List Observer}
    (h : Alone s place .ready (observers.map .register ++ todo))
    (hnone : ∀ c j e, .called c j e ∉ s.history) :
    ∃ s', Leads s s' ∧ Alone s' place .ready todo ∧ s'.observers = s.observers ++ observers ∧
      s'.publications = s.publications := by
  induction observers generalizing s with
  | nil => exact ⟨s, Leads.refl s, h, (List.append_nil _).symm, rfl⟩
  | cons o observers ih =>
      obtain ⟨mid, hlead, hmid, hobs, hpubs, hnone⟩ := h.exists_registered hnone
      obtain ⟨s', hlead', h', hobs', hpubs'⟩ := ih hmid hnone
      refine ⟨s', hlead.trans hlead', h', ?_, hpubs'.trans hpubs⟩
      rw [hobs', hobs, List.append_assoc, List.singleton_append]

/-! ## Sequential executions -/

/-- All observers are registered, and then the events are published. -/
def script (observers : List Observer) (events : List Event) : List Act :=
  observers.map .register ++ events.map .publish

/-- What a sequential execution comes to that registers these observers and publishes these events
in this order, whatever ids the events have. -/
structure Sequential (s : State) (observers : List Observer) (events : List Event) : Prop where
  observers : s.observers = observers
  events : s.publications.map (·.event.unnumbered) = events.map Event.unnumbered
  registeredFirst : s.RegisteredFirst
  /-- All publishes are called by one thread. -/
  thread : ∃ i, ∀ c j e, .called c j e ∈ s.history → j = i
  oneAtATime : s.OneAtATime
  settled : s.Settled

theorem alone_join (config : Config) (home place : Place) (acts : List Act) :
    Alone ((new config home).spawn (Task.caller place acts)) place .ready acts where
  caller := rfl
  others := by
    intro i t ht hi
    rcases getElem?_push ht with ht | ⟨hsize, -⟩
    · rw [new, Array.getElem?_empty] at ht
      cases ht
    · exact absurd hsize hi
  thread := by
    intro c j e hmem
    cases hmem
  ended := by
    intro p slot task hmem
    cases hmem
  oneAtATime := by
    intro n c j e hn
    cases hn
  registeredFirst := by
    rintro c j e call slot ⟨m, n, hmn, hm, hn⟩
    cases hm

theorem exists_sequential (config : Config) (home place : Place) (observers : List Observer)
    (events : List Event) (hids : ∀ k e, events[k]? = some e → e.id = UInt64.ofNat (k + 1))
    (hquiet : ∀ o ∈ observers, ∀ e ∈ events, (o.react e).Quiet) :
    ∃ schedule : List Nat, ((new config home).play
      (.join place (script observers events) :: schedule.map .step)).Sequential
        observers events := by
  have hco : ((new config home).spawn (Task.caller place (script observers events))).Coherent :=
    (coherent_new config home).join place _
  obtain ⟨mid, hlead, hmid, hobs, hpubs⟩ :=
    (alone_join config home place (script observers events)).exists_registered_all
      fun c j e hmem => by cases hmem
  have hobs : mid.observers = observers := hobs
  have hpubs : mid.publications = [] := hpubs
  have hmidco := hlead.coherent hco
  -- the registrations have drawn no number, so the first event gets the first one
  have hzero : mid.issued = 0 := by
    rw [← hmidco.length_publications, hpubs]
    rfl
  obtain ⟨s', hlead', h', hobs', hpubs', hret'⟩ := hmid.exists_published_all hmidco
    (fun k e he => by rw [hzero, Nat.zero_add]; exact hids k e he)
    (fun o ho => hquiet o (hobs ▸ ho))
    (fun p hp => by rw [hpubs] at hp; cases hp)
  rw [hpubs] at hpubs'
  obtain ⟨schedule, hrun⟩ := hlead.trans hlead'
  refine ⟨schedule, ?_⟩
  have hplay : (new config home).play
      (.join place (script observers events) :: schedule.map .step) = s' := by
    rw [← hrun, run_eq_play]
    rfl
  rw [hplay]
  refine ⟨hobs'.trans hobs, ?_, h'.registeredFirst, ⟨0, h'.thread⟩, h'.oneAtATime, hret', ?_⟩
  · have hevents := congrArg (List.map Event.unnumbered) hpubs'
    rwa [List.map_map] at hevents
  · intro t ht hnotice
    obtain ⟨i, hi⟩ := Array.mem_iff_getElem?.mp ht
    refine h'.others i t hi ?_
    rintro rfl
    rw [h'.caller] at hi
    obtain rfl := Option.some.inj hi
    cases hnotice

end State

end FlowEvents.Bus
