import FlowEvents.Proofs.Bus.Settling

/-! # Callers wait for nobody

A caller goes on whenever its turn comes: there is nothing in any other task that it could wait for.
So it gets through its acts in a number of turns that depends on the acts and on how many observers
there are, whatever the observers do about the events.  By then every publish that it called for has
returned, and every registration.
-/

namespace FlowEvents.Bus

/-! ## How many turns it takes -/

/-- How many turns an act takes at most, if there are never more than `n` observers. -/
def Act.turns (n : Nat) : Act → Nat
  | .publish _ => n + 5
  | .register _ => 3
  | .write _ => 1
  | .keep _ => 1

/-- How many turns a task takes at most besides those for the acts still to come. -/
def Control.turns (n : Nat) : Control → Nat
  | .waiting => 2
  | .ready => 1
  | .called _ _ => n + 5
  | .numbered _ => n + 4
  | .traced _ => n + 3
  | .sending _ left => left.length + 2
  | .enrolling _ _ => 3
  | .enrolled _ _ => 2
  | .pending => 1
  | .finished => 0

/-- How many turns a task takes at most until it is over. -/
def Task.turns (n : Nat) (t : Task) : Nat :=
  t.control.turns n + (t.todo.map (Act.turns n)).sum

/-- A caller from outside.  It comes to an end when its acts do. -/
structure Task.FromOutside (t : Task) : Prop where
  role : t.role = .caller
  ending : t.ending = .returned
  going : t.control ≠ .pending
  atEnd : t.control = .finished → t.todo = []

/-- Only what is over takes no more turns. -/
theorem Task.finished_of_turns {t : Task} {n : Nat} (h : t.turns n = 0) :
    t.control = .finished := by
  obtain ⟨place, role, control, todo, ending⟩ := t
  have hzero : control.turns n = 0 := Nat.eq_zero_of_add_eq_zero_right h
  cases control with
  | finished => rfl
  | _ => cases hzero

/-- The move is a turn of task `i`. -/
def Move.isTurnOf (i : Nat) : Move → Bool
  | .join _ _ => false
  | .step task => task == i

/-- How many turns task `i` gets. -/
def turnsOf (i : Nat) (moves : List Move) : Nat :=
  moves.countP (Move.isTurnOf i)

/-! ## Calls and answers -/

/-- What task `i` asks of the bus in an entry. -/
def Entry.request? (i : Nat) : Entry → Option Act
  | .called _ task e => if task = i then some (.publish e) else none
  | .enrolling _ task o => if task = i then some (.register o) else none
  | _ => none

/-- The call that an entry answers. -/
def Entry.answered? : Entry → Option Nat
  | .returned p => some p.call
  | .registered call _ => some call
  | _ => none

/-- Entries that open the same call are the same. -/
theorem Lawful.opening_eq {journal : List Entry} (h : Lawful journal) {call : Nat} {x y : Entry}
    (hx : x ∈ journal) (hxc : x.opens? = some call) (hy : y ∈ journal)
    (hyc : y.opens? = some call) : x = y := by
  obtain ⟨m, hm⟩ := List.mem_iff_getElem?.mp hx
  obtain ⟨n, hn⟩ := List.mem_iff_getElem?.mp hy
  obtain rfl := h.opening_unique hm hxc hn hyc
  exact Option.some.inj (hm.symm.trans hn)

namespace State

/-- What task `i` has asked of the bus, in the order of asking. -/
def requests (s : State) (i : Nat) : List Act :=
  s.history.filterMap (Entry.request? i)

variable {s s' : State} {i j n : Nat} {t t' u : Task} {x : Entry}

theorem getElem?_set_self (ht : s.tasks[i]? = some t) (u : Task) :
    (s.tasks.setIfInBounds i u)[i]? = some u :=
  Array.getElem?_setIfInBounds_self_of_lt (lt_size_of_getElem? ht)

theorem getElem?_push_of_some {ts : Array Task} (ht : ts[j]? = some t) (v : Task) :
    (ts.push v)[j]? = some t := by
  have hlt := (Array.getElem?_eq_some_iff.mp ht).1
  rw [← ht]
  exact (Array.getElem?_push_lt hlt).trans (Array.getElem?_eq_getElem hlt).symm

/-! ## The turns of others -/

/-- A step leaves the other tasks as they are. -/
theorem Step.others_kept (h : Step i s s') (hji : j ≠ i) (ht : s.tasks[j]? = some t) :
    s'.tasks[j]? = some t := by
  have changed : ∀ t' : Task, (s.tasks.setIfInBounds i t')[j]? = some t := by
    intro t'
    rwa [Array.getElem?_setIfInBounds_ne (Ne.symm hji)]
  cases h with
  | idle => exact ht
  | sent => exact getElem?_push_of_some (changed _) _
  | _ => exact changed _

theorem requests_eq (hjournal : s'.journal = s.journal.push x) (hx : x.request? j = none) :
    s'.requests j = s.requests j := by
  rw [requests, history_eq_concat hjournal, filterMap_concat_none _ hx, requests]

/-- The entries that a step makes are its task's own. -/
theorem Step.requests_kept (h : Step i s s') (hji : j ≠ i) : s'.requests j = s.requests j := by
  cases h with
  | idle | opened | stayed | written | traced => rfl
  | called | enrolling => exact requests_eq rfl (if_neg (Ne.symm hji))
  | _ => exact requests_eq rfl rfl

theorem Step.observers_grow (h : Step i s s') : s.observers <+: s'.observers := by
  cases h with
  | enrolled => exact List.prefix_append _ _
  | _ => exact List.prefix_rfl

/-- Observers are never taken out. -/
theorem observers_prefix_play (moves : List Move) (s : State) :
    s.observers <+: (s.play moves).observers := by
  induction moves generalizing s with
  | nil => exact List.prefix_rfl
  | cons m moves ih =>
      refine List.IsPrefix.trans ?_ (ih (s.move m))
      cases m with
      | join place acts => exact List.prefix_rfl
      | step i => exact (step_spec i s).observers_grow

/-! ## A caller's own turn -/

/-- Each turn of a caller brings it closer to its end. -/
theorem turns_step (ht : s.tasks[i]? = some t) (h : t.FromOutside)
    (hn : s.observers.length ≤ n) :
    ∃ u, (s.step i).tasks[i]? = some u ∧ u.turns n ≤ t.turns n - 1 := by
  obtain ⟨place, role, control, todo, ending⟩ := t
  obtain ⟨hrole, hending, hgoing, hover⟩ := h
  obtain rfl : role = .caller := hrole
  obtain rfl : ending = .returned := hending
  have advance : ∀ (control' : Control) (todo' : List Act),
      (s.step i).tasks = s.tasks.setIfInBounds i ⟨place, .caller, control', todo', .returned⟩ →
      control'.turns n + (todo'.map (Act.turns n)).sum <
        control.turns n + (todo.map (Act.turns n)).sum →
      ∃ u, (s.step i).tasks[i]? = some u ∧
        u.turns n ≤ Task.turns n ⟨place, .caller, control, todo, .returned⟩ - 1 := by
    intro control' todo' htasks hturns
    refine ⟨⟨place, .caller, control', todo', .returned⟩, ?_, Nat.le_sub_one_of_lt hturns⟩
    rw [htasks]
    exact getElem?_set_self ht _
  cases control with
  | waiting =>
      exact advance .ready todo (by rw [step, ht]; rfl) (by simp [Control.turns])
  | ready =>
      cases todo with
      | nil => exact advance .finished [] (by rw [step, ht]; rfl) (by simp [Control.turns])
      | cons act todo =>
          rw [List.map_cons, List.sum_cons] at advance
          cases act with
          | publish e =>
              refine advance (.called s.calls e) todo (by rw [step, ht]; rfl) ?_
              simp only [Control.turns, Act.turns]
              omega
          | register o =>
              refine advance (.enrolling s.calls o) todo (by rw [step, ht]; rfl) ?_
              simp only [Control.turns, Act.turns]
              omega
          | write l | keep e =>
              refine advance .ready todo (by rw [step, ht]; rfl) ?_
              simp only [Act.turns]
              omega
  | called call e =>
      exact advance (.numbered _) todo (by rw [step, ht]; rfl) (by simp [Control.turns])
  | numbered p =>
      refine advance (.traced p) todo ?_ (by simp [Control.turns])
      rw [step, ht]
      dsimp only
      split <;> rfl
  | traced p =>
      -- this is where the number of observers comes in
      refine advance (.sending p s.observers.zipIdx) todo (by rw [step, ht]; rfl) ?_
      simp only [Control.turns, List.length_zipIdx]
      omega
  | sending p left =>
      cases left with
      | nil => exact advance .ready todo (by rw [step, ht]; rfl) (by simp [Control.turns])
      | cons first left =>
          -- the one step that also adds a task
          have htasks : ∃ v, (s.step i).tasks = (s.tasks.setIfInBounds i
              ⟨place, .caller, .sending p left, todo, .returned⟩).push v :=
            ⟨_, by rw [step, ht]; rfl⟩
          obtain ⟨v, htasks⟩ := htasks
          refine ⟨⟨place, .caller, .sending p left, todo, .returned⟩, ?_,
            Nat.le_sub_one_of_lt ?_⟩
          · rw [htasks]
            exact getElem?_push_of_some (getElem?_set_self ht _) v
          · simp [Task.turns, Control.turns]
  | enrolling call o =>
      exact advance (.enrolled call s.observers.length) todo (by rw [step, ht]; rfl)
        (by simp [Control.turns])
  | enrolled call slot =>
      exact advance .ready todo (by rw [step, ht]; rfl) (by simp [Control.turns])
  | pending => exact absurd rfl hgoing
  | finished =>
      refine ⟨_, by rw [step, ht]; exact ht, ?_⟩
      rw [Task.turns, hover rfl]
      exact Nat.zero_le _

/-- What a caller has asked for and what it is still to ask for are in all the same as before. -/
theorem Step.requests_todo (h : Step i s s') (ht : s.tasks[i]? = some t) (hr : t.role = .caller)
    (hu : s'.tasks[i]? = some u) :
    s'.requests i ++ u.todo.filter Act.isCall = s.requests i ++ t.todo.filter Act.isCall := by
  have asked : ∀ {s' : State} {x : Entry} {act : Act} {todo : List Act},
      s'.journal = s.journal.push x → x.request? i = some act → act.isCall = true →
      t.todo = act :: todo →
      s'.requests i ++ todo.filter Act.isCall = s.requests i ++ t.todo.filter Act.isCall := by
    intro s' x act todo hjournal hx hact htodo
    rw [requests, history_eq_concat hjournal, filterMap_concat_some _ hx, requests, htodo,
      List.filter_cons_of_pos hact, List.append_assoc, List.singleton_append]
  have same : ∀ {t₀ : Task}, s.tasks[i]? = some t₀ → t₀ = t := fun ht₀ =>
    Option.some.inj (ht₀.symm.trans ht)
  cases h with
  | idle => rw [same hu]
  | started t₀ notice reaction ht₀ hc hrole =>
      obtain rfl := same ht₀
      rw [hr] at hrole
      cases hrole
  | opened t₀ ht₀ | stayed t₀ ht₀ | traced t₀ p ht₀ =>
      obtain rfl := same ht₀
      rw [getElem?_self ht rfl hu]
      rfl
  | ended t₀ ht₀ | numbered t₀ call e p ht₀ | listed t₀ p ht₀ | returned t₀ p ht₀
  | enrolled t₀ call o ht₀ | registered t₀ call slot ht₀ =>
      obtain rfl := same ht₀
      rw [getElem?_self ht rfl hu]
      exact congrArg (· ++ _) (requests_eq rfl rfl)
  | sent t₀ p o slot left ht₀ =>
      obtain rfl := same ht₀
      have hset := getElem?_push_of_some
        (getElem?_set_self ht { t₀ with control := .sending p left })
        (Task.delivery (t₀.place.forNotice s.home) ⟨p, slot, o⟩)
      obtain rfl := Option.some.inj (hset.symm.trans hu)
      exact congrArg (· ++ _) (requests_eq rfl rfl)
  | called t₀ e todo ht₀ hc htodo =>
      obtain rfl := same ht₀
      rw [getElem?_self ht rfl hu]
      exact asked rfl (if_pos rfl) rfl htodo
  | enrolling t₀ o todo ht₀ hc htodo =>
      obtain rfl := same ht₀
      rw [getElem?_self ht rfl hu]
      exact asked rfl (if_pos rfl) rfl htodo
  | written t₀ line todo ht₀ hc htodo =>
      obtain rfl := same ht₀
      rw [getElem?_self ht rfl hu, htodo]
      rfl
  | kept t₀ e todo ht₀ hc htodo =>
      obtain rfl := same ht₀
      rw [getElem?_self ht rfl hu, htodo]
      exact congrArg (· ++ _) (requests_eq rfl rfl)

/-! ## Invariants -/

/-- Callers come to an end when their acts do. -/
def CallersGoOn (s : State) : Prop :=
  ∀ t ∈ s.tasks, t.role = .caller → t.FromOutside

theorem CallersGoOn.of_step (h : s.CallersGoOn) (hstep : Step i s s') : s'.CallersGoOn := by
  have changed : ∀ {t t' u : Task}, u ∈ s.tasks.setIfInBounds i t' → u.role = .caller →
      s.tasks[i]? = some t → t'.role = t.role → t'.ending = t.ending →
      (t.FromOutside → t'.control ≠ .pending) → (t'.control = .finished → t'.todo = []) →
      u.FromOutside := by
    intro t t' u hu hr ht hrole hending hgoing hover
    rcases Array.mem_or_eq_of_mem_setIfInBounds hu with hu | rfl
    · exact h u hu hr
    · have ht := h t (Array.mem_of_getElem? ht) (hrole ▸ hr)
      exact ⟨hr, hending.trans ht.ending, hgoing ht, hover⟩
  intro u hu hr
  cases hstep with
  | idle => exact h u hu hr
  | started t notice reaction ht hc hrole =>
      rcases Array.mem_or_eq_of_mem_setIfInBounds hu with hu | rfl
      · exact h u hu hr
      · rw [hrole] at hr
        cases hr
  | stayed t ht hc htodo hend =>
      refine changed hu hr ht rfl rfl (fun ht _ => ?_) (fun hc => by cases hc)
      rw [ht.ending] at hend
      cases hend
  | ended t ht hc htodo => exact changed hu hr ht rfl rfl (fun _ hc => by cases hc) (fun _ => htodo)
  | written t line todo ht hc | kept t e todo ht hc =>
      refine changed hu hr ht rfl rfl (fun ht => ht.going) (fun hover => ?_)
      rw [hc] at hover
      cases hover
  | sent t p o slot left ht =>
      rcases Array.mem_push.mp hu with hu | rfl
      · exact changed hu hr ht rfl rfl (fun _ hc => by cases hc) (fun hc => by cases hc)
      · cases hr
  | opened t ht | called t e todo ht | enrolling t o todo ht | numbered t call e p ht
  | traced t p ht | listed t p ht | returned t p ht | enrolled t call o ht
  | registered t call slot ht =>
      exact changed hu hr ht rfl rfl (fun _ hc => by cases hc) (fun hc => by cases hc)

theorem CallersGoOn.of_join (h : s.CallersGoOn) (place : Place) (acts : List Act) :
    (s.spawn (Task.caller place acts)).CallersGoOn := by
  intro u hu hr
  rcases Array.mem_push.mp hu with hu | rfl
  · exact h u hu hr
  · exact ⟨rfl, rfl, (fun hc => by cases hc), (fun hc => by cases hc)⟩

/-- A call has been answered, or the task that made it is still in it. -/
def Attended (s : State) : Prop :=
  ∀ x ∈ s.history, ∀ call i, x.opens? = some call → x.opener? = some i →
    call ∈ s.history.filterMap Entry.answered? ∨
      ∃ t, s.tasks[i]? = some t ∧ t.control.call? = some call

/-- What is left to check of a step: the task stays in its call or answers it, and opens no call but
the one that it is in then. -/
theorem Attended.advance {entries : List Entry} (h : s.Attended) (hstep : Step i s s')
    (ht : s.tasks[i]? = some t) (hu : s'.tasks[i]? = some u)
    (hhist : s'.history = s.history ++ entries)
    (hkept : ∀ call, t.control.call? = some call →
      call ∈ entries.filterMap Entry.answered? ∨ u.control.call? = some call)
    (hnew : ∀ x ∈ entries, ∀ call j, x.opens? = some call → x.opener? = some j →
      j = i ∧ u.control.call? = some call) : s'.Attended := by
  intro x hx call j hopens hopener
  rw [hhist, List.filterMap_append, List.mem_append]
  rw [hhist, List.mem_append] at hx
  rcases hx with hx | hx
  · rcases h x hx call j hopens hopener with hanswered | ⟨v, hv, hcall⟩
    · exact .inl (.inl hanswered)
    · by_cases hji : j = i
      · subst hji
        obtain rfl := Option.some.inj (hv.symm.trans ht)
        rcases hkept call hcall with hanswered | hcall
        · exact .inl (.inr hanswered)
        · exact .inr ⟨u, hu, hcall⟩
      · exact .inr ⟨v, hstep.others_kept hji hv, hcall⟩
  · obtain ⟨rfl, hcall⟩ := hnew x hx call j hopens hopener
    exact .inr ⟨u, hu, hcall⟩

theorem Attended.of_step (h : s.Attended) (hstep : Step i s s') : s'.Attended := by
  -- a step that opens no call, with the entries it makes
  have plain : ∀ {s' : State} {t u : Task} {entries : List Entry}, Step i s s' →
      s.tasks[i]? = some t → s'.tasks[i]? = some u → s'.history = s.history ++ entries →
      (∀ x ∈ entries, x.opens? = none) →
      (∀ call, t.control.call? = some call →
        call ∈ entries.filterMap Entry.answered? ∨ u.control.call? = some call) →
      s'.Attended := by
    intro s' t u entries hstep ht hu hhist hnone hkept
    refine h.advance hstep ht hu hhist hkept ?_
    intro x hx call j hopens
    rw [hnone x hx] at hopens
    cases hopens
  have hs := hstep
  cases hs with
  | idle => exact h
  | opened t ht hc | stayed t ht hc | written t line todo ht hc | traced t p ht hc =>
      refine plain hstep ht (getElem?_set_self ht _) (List.append_nil _).symm (by simp) ?_
      simp [hc, Control.call?]
  | started t notice reaction ht hc | ended t ht hc | kept t e todo ht hc | listed t p ht hc
  | enrolled t call o ht hc =>
      refine plain hstep ht (getElem?_set_self ht _) (history_eq_concat rfl)
        (by simp [Entry.opens?]) ?_
      simp [hc, Control.call?]
  | numbered t call e p ht hc hp =>
      subst hp
      refine plain hstep ht (getElem?_set_self ht _) (history_eq_concat rfl)
        (by simp [Entry.opens?]) ?_
      simp [hc, Control.call?]
  | returned t p ht hc | registered t call slot ht hc =>
      refine plain hstep ht (getElem?_set_self ht _) (history_eq_concat rfl)
        (by simp [Entry.opens?]) ?_
      simp [hc, Control.call?, Entry.answered?]
  | sent t p o slot left ht hc =>
      refine plain hstep ht (getElem?_push_of_some (getElem?_set_self ht _) _)
        (history_eq_concat rfl) (by simp [Entry.opens?]) ?_
      simp [hc, Control.call?]
  | called t e todo ht hc | enrolling t o todo ht hc =>
      refine h.advance hstep ht (getElem?_set_self ht _) (history_eq_concat rfl) ?_ ?_
      · simp [hc, Control.call?]
      · intro x hx call j hopens hopener
        obtain rfl := List.mem_singleton.mp hx
        exact ⟨(Option.some.inj hopener).symm, hopens⟩

theorem callers_go_on (config : Config) (home : Place) (moves : List Move) :
    ((new config home).play moves).CallersGoOn := by
  refine play_induction ?_ (fun s place acts h => h.of_join place acts)
    (fun s i h => h.of_step (step_spec i s)) moves
  exact fun t ht => absurd ht (Array.not_mem_empty t)

theorem attended_play (config : Config) (home : Place) (moves : List Move) :
    ((new config home).play moves).Attended := by
  refine play_induction ?_ ?_ (fun s i h => h.of_step (step_spec i s)) moves
  · exact fun x hx => by cases hx
  · intro s place acts h x hx call i hopens hopener
    rcases h x hx call i hopens hopener with hanswered | ⟨t, ht, hcall⟩
    · exact .inl hanswered
    · exact .inr ⟨t, getElem?_push_of_some ht _, hcall⟩

/-! ## Callers get through -/

/-- What answers a publish is its return. -/
theorem Coherent.returned_of_answered (h : s.Coherent) {call : Nat} {e : Event}
    (hcall : .called call i e ∈ s.history)
    (hanswered : call ∈ s.history.filterMap Entry.answered?) :
    ∃ p : Publication, p.call = call ∧ .returned p ∈ s.history := by
  obtain ⟨y, hy, hanswer⟩ := List.mem_filterMap.mp hanswered
  cases y with
  | returned p => exact ⟨p, Option.some.inj hanswer, hy⟩
  | registered c slot =>
      obtain rfl : c = call := Option.some.inj hanswer
      obtain ⟨n, hn⟩ := List.mem_iff_getElem?.mp hy
      obtain ⟨j, o, hst⟩ := h.lawful n _ hn
      have hopen : Entry.enrolling c j o ∈ story c (s.history.take n) := by simp [hst]
      have hmem := List.mem_of_mem_take (mem_story.mp hopen).1
      cases h.lawful.opening_eq hcall rfl hmem rfl
  | _ => cases hanswer

theorem Coherent.registered_of_answered (h : s.Coherent) {call : Nat} {o : Observer}
    (hcall : .enrolling call i o ∈ s.history)
    (hanswered : call ∈ s.history.filterMap Entry.answered?) :
    ∃ slot, .registered call slot ∈ s.history := by
  obtain ⟨y, hy, hanswer⟩ := List.mem_filterMap.mp hanswered
  cases y with
  | registered c slot =>
      obtain rfl : c = call := Option.some.inj hanswer
      exact ⟨slot, hy⟩
  | returned p =>
      obtain rfl : p.call = call := Option.some.inj hanswer
      obtain ⟨e, tasks, hst⟩ := h.lawful.story_of_returned hy
      have hopen : Entry.called p.call p.publisher e ∈ story p.call s.history := by
        simp [hst, publishing]
      cases h.lawful.opening_eq hcall rfl (mem_story.mp hopen).1 rfl
  | _ => cases hanswer

/-- The caller `i` is done: it has made the given calls, and every call of it has been answered. -/
structure Served (s : State) (i : Nat) (calls : List Act) : Prop where
  finished : ∃ t, s.tasks[i]? = some t ∧ t.control = .finished ∧ t.todo = []
  asked : s.requests i = calls
  returned : ∀ call e, .called call i e ∈ s.history →
    ∃ p : Publication, p.call = call ∧ .returned p ∈ s.history
  registered : ∀ call o, .enrolling call i o ∈ s.history →
    ∃ slot, .registered call slot ∈ s.history

/-- Turns of its own are all that a caller needs. -/
theorem finished_of_turns (moves : List Move) (h : s.CallersGoOn) (ht : s.tasks[i]? = some t)
    (hr : t.role = .caller) (hn : (s.play moves).observers.length ≤ n)
    (hturns : t.turns n ≤ turnsOf i moves) :
    ∃ u, (s.play moves).tasks[i]? = some u ∧ u.control = .finished ∧ u.todo = [] ∧
      (s.play moves).requests i = s.requests i ++ t.todo.filter Act.isCall := by
  induction moves generalizing s t with
  | nil =>
      have hc := Task.finished_of_turns (Nat.le_zero.mp hturns)
      have htodo := (h t (Array.mem_of_getElem? ht) hr).atEnd hc
      refine ⟨t, ht, hc, htodo, ?_⟩
      rw [htodo]
      exact (List.append_nil _).symm
  | cons m moves ih =>
      have hlen : s.observers.length ≤ n :=
        Nat.le_trans (observers_prefix_play (m :: moves) s).length_le hn
      cases m with
      | join place acts =>
          exact ih (h.of_join place acts) (getElem?_push_of_some ht _) hr hn hturns
      | step j =>
          have hstep := step_spec j s
          by_cases hji : j = i
          · subst hji
            obtain ⟨u, hu, hless⟩ := turns_step ht (h t (Array.mem_of_getElem? ht) hr) hlen
            have hur : u.role = .caller := by
              obtain ⟨v, hv, hrole⟩ := hstep.role_kept ht
              obtain rfl := Option.some.inj (hv.symm.trans hu)
              exact hrole.trans hr
            have hturn : turnsOf j (.step j :: moves) = turnsOf j moves + 1 :=
              List.countP_cons_of_pos (by simp [Move.isTurnOf])
            obtain ⟨v, hv, hc, htodo, hrequests⟩ := ih (h.of_step hstep) hu hur hn (by omega)
            exact ⟨v, hv, hc, htodo, hrequests.trans (hstep.requests_todo ht hr hu)⟩
          · have hturn : turnsOf i (.step j :: moves) = turnsOf i moves :=
              List.countP_cons_of_neg (by simp [Move.isTurnOf, hji])
            obtain ⟨v, hv, hc, htodo, hrequests⟩ :=
              ih (h.of_step hstep) (hstep.others_kept (Ne.symm hji) ht) hr hn (by omega)
            refine ⟨v, hv, hc, htodo, hrequests.trans ?_⟩
            rw [hstep.requests_kept (Ne.symm hji)]

/-- **Callers get through.** Whatever else is going on, and whatever the observers do about the
events, a caller that gets its turns makes all its calls, and each of them is answered. -/
theorem callers_served (config : Config) (home : Place) (past future : List Move)
    (ht : ((new config home).play past).tasks[i]? = some t) (hr : t.role = .caller)
    (hturns : t.turns ((new config home).play (past ++ future)).observers.length ≤
      turnsOf i future) :
    ((new config home).play (past ++ future)).Served i
      (((new config home).play past).requests i ++ t.todo.filter Act.isCall) := by
  have hco := coherent_play config home (past ++ future)
  have hattended := attended_play config home (past ++ future)
  have hgo := callers_go_on config home past
  rw [play_append] at hco hattended hturns ⊢
  obtain ⟨u, hu, hc, htodo, hrequests⟩ :=
    finished_of_turns future hgo ht hr (Nat.le_refl _) hturns
  -- the caller is in no call any more
  have answered : ∀ x ∈ (((new config home).play past).play future).history, ∀ call,
      x.opens? = some call → x.opener? = some i →
      call ∈ (((new config home).play past).play future).history.filterMap Entry.answered? := by
    intro x hx call hopens hopener
    rcases hattended x hx call i hopens hopener with hanswered | ⟨v, hv, hcall⟩
    · exact hanswered
    · obtain rfl := Option.some.inj (hv.symm.trans hu)
      rw [hc] at hcall
      cases hcall
  constructor
  · exact ⟨u, hu, hc, htodo⟩
  · exact hrequests
  · intro call e hcall
    exact hco.returned_of_answered hcall (answered _ hcall call rfl rfl)
  · intro call o hcall
    exact hco.registered_of_answered hcall (answered _ hcall call rfl rfl)

end State

end FlowEvents.Bus
