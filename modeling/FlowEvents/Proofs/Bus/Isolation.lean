import FlowEvents.Proofs.Bus.Besides

/-! # Observers are isolated from one another

Let two executions go through the same moves, but for who is registered in one slot and which turns
the notifications of that slot get.  Then nobody else can tell them apart, as long as the observers
do not call the bus themselves: it does not matter whether the notifications of the slot return,
panic, have a name to panic with, change their copies or wait for ever.
-/

namespace FlowEvents.Bus

namespace State

variable {slot i : Nat} {seat : Nat → Observer} {s s' : State} {t : Task}

/-- No reaction that a notification is about calls the bus. -/
def Reticent (s : State) : Prop :=
  ∀ n ∈ s.notices, ∀ act ∈ (n.observer.react n.publication.event).acts, act.isCall = false

/-! ## What is known of every state -/

theorem Step.attributed (hstep : Step i s s') (h : s.Attributed) : s'.Attributed := by
  -- what is added is the acting task's, and tasks are never taken out
  have added : ∀ {s' : State} {entries : List Entry} {lines : List Written} {t : Task},
      s.tasks[i]? = some t → s'.history = s.history ++ entries →
      s'.log.toList = s.log.toList ++ lines → s.tasks.size ≤ s'.tasks.size →
      (∀ x ∈ entries, ∀ j, x.actor? = some j → j = i) → (∀ w ∈ lines, w.writer = i) →
      s'.Attributed := by
    intro s' entries lines t ht hhist hlog hsize hentries hlines
    have hi := lt_size_of_getElem? ht
    constructor
    · intro x hx j hj
      rw [hhist, List.mem_append] at hx
      rcases hx with hx | hx
      · exact Nat.lt_of_lt_of_le (h.entries x hx j hj) hsize
      · rw [hentries x hx j hj]
        exact Nat.lt_of_lt_of_le hi hsize
    · intro w hw
      rw [← Array.mem_toList_iff, hlog, List.mem_append, Array.mem_toList_iff] at hw
      rcases hw with hw | hw
      · exact Nat.lt_of_lt_of_le (h.lines w hw) hsize
      · rw [hlines w hw]
        exact Nat.lt_of_lt_of_le hi hsize
  have hset : ∀ u : Task, s.tasks.size ≤ (s.tasks.setIfInBounds i u).size := by simp
  have hnil : s.log.toList = s.log.toList ++ [] := (List.append_nil _).symm
  cases hstep with
  | idle => exact h
  | opened t ht | stayed t ht =>
      exact added ht (List.append_nil _).symm hnil (hset _) (by simp) (by simp)
  | written t line todo ht =>
      exact added ht (List.append_nil _).symm Array.toList_push (hset _) (by simp) (by simp)
  | traced t p ht =>
      by_cases hann : s.config.announces p.event.tag = true
      · simp only [if_pos hann]
        exact added ht (List.append_nil _).symm Array.toList_push (hset _) (by simp) (by simp)
      · simp only [if_neg hann]
        exact added ht (List.append_nil _).symm hnil (hset _) (by simp) (by simp)
  | ended t ht =>
      refine added ht (history_eq_concat rfl) Array.toList_append (hset _)
        (by simp [Entry.actor?]) ?_
      simp
  | sent t p o k left ht =>
      exact added ht (history_eq_concat rfl) hnil (by simp) (by simp [Entry.actor?]) (by simp)
  | started t n reaction ht | called t e todo ht | enrolling t o todo ht | kept t e todo ht
  | numbered t call e p ht | listed t p ht | returned t p ht | enrolled t call o ht
  | registered t call k ht =>
      exact added ht (history_eq_concat rfl) hnil (hset _) (by simp [Entry.actor?]) (by simp)

theorem attributed_play (config : Config) (home : Place) (moves : List Move) :
    ((new config home).play moves).Attributed := by
  refine play_induction ?_ ?_ (fun s i h => (step_spec i s).attributed h) moves
  · exact ⟨(fun x hx => by cases hx), (fun w hw => absurd hw (Array.not_mem_empty w))⟩
  · intro s place acts h
    have hsize : s.tasks.size ≤ (s.spawn (Task.caller place acts)).tasks.size := by simp [spawn]
    exact ⟨fun x hx j hj => Nat.lt_of_lt_of_le (h.entries x hx j hj) hsize,
      fun w hw => Nat.lt_of_lt_of_le (h.lines w hw) hsize⟩

/-- A notification whose reaction does not call the bus is in no call. -/
def Uncalled (s : State) : Prop :=
  ∀ t ∈ s.tasks, ∀ n, t.notice? = some n →
    (∀ act ∈ (n.observer.react n.publication.event).acts, act.isCall = false) →
    t.control.call? = none

theorem Step.uncalled (hstep : Step i s s') (hseat : s.Seated) (h : s.Uncalled) :
    s'.Uncalled := by
  have changed : ∀ {t t' u : Task} {n : Notice}, u ∈ s.tasks.setIfInBounds i t' →
      u.notice? = some n →
      (∀ act ∈ (n.observer.react n.publication.event).acts, act.isCall = false) →
      s.tasks[i]? = some t → t'.role = t.role →
      (t.notice? = some n → t.control.call? = none → t'.control.call? = none) →
      u.control.call? = none := by
    intro t t' u n hu hn hquiet ht hrole hkept
    rcases Array.mem_or_eq_of_mem_setIfInBounds hu with hu | rfl
    · exact h u hu n hn hquiet
    · have hnotice : t.notice? = some n := by
        rw [← hn, Task.notice?_congr hrole]
      exact hkept hnotice (h t (Array.mem_of_getElem? ht) n hnotice hquiet)
  intro u hu n hn hquiet
  cases hstep with
  | idle => exact h u hu n hn hquiet
  | opened t ht | started t m reaction ht | stayed t ht | ended t ht | returned t p ht
  | registered t call k ht =>
      exact changed hu hn hquiet ht rfl fun _ _ => rfl
  | written t line todo ht | kept t e todo ht =>
      exact changed hu hn hquiet ht rfl fun _ hnone => hnone
  | called t e todo ht hc htodo | enrolling t o todo ht hc htodo =>
      -- the call would be one of the acts of the reaction
      refine changed hu hn hquiet ht rfl fun hnotice _ => ?_
      have hacts := (hseat.tasks t (Array.mem_of_getElem? ht)).acts n hnotice (by simp [hc])
      have hmem := hacts.1.subset (by rw [htodo]; exact List.mem_cons_self)
      cases hquiet _ hmem
  | numbered t call e p ht hc | traced t p ht hc | listed t p ht hc | enrolled t call o ht hc =>
      refine changed hu hn hquiet ht rfl fun _ hnone => ?_
      rw [hc] at hnone
      cases hnone
  | sent t p o k left ht hc =>
      rcases Array.mem_push.mp hu with hu | rfl
      · refine changed hu hn hquiet ht rfl fun _ hnone => ?_
        rw [hc] at hnone
        cases hnone
      · rfl

theorem uncalled_play (config : Config) (home : Place) (moves : List Move) :
    ((new config home).play moves).Uncalled := by
  induction moves using List.reverseRecOn with
  | nil => exact fun t ht => absurd ht (Array.not_mem_empty t)
  | append_singleton moves m ih =>
      rw [play_concat]
      cases m with
      | join place acts =>
          intro u hu n hn hquiet
          rcases Array.mem_push.mp hu with hu | rfl
          · exact ih u hu n hn hquiet
          · cases hn
      | step i => exact (step_spec i _).uncalled (seated_play config home moves) ih

/-- A notification of an earlier state is one of every later state. -/
theorem notices_play {n : Notice} (moves : List Move) (hn : n ∈ s.notices) :
    n ∈ (s.play moves).notices := by
  obtain ⟨t, ht, hnotice⟩ := mem_notices.mp hn
  obtain ⟨j, hj⟩ := Array.mem_iff_getElem?.mp ht
  obtain ⟨u, hu, hrole⟩ := role_kept_play moves hj
  refine mem_notices.mpr ⟨u, Array.mem_of_getElem? hu, ?_⟩
  rw [← hnotice, Task.notice?_congr hrole]

theorem isOf_iff : t.isOf slot = true ↔ ∃ n, t.notice? = some n ∧ n.slot = slot := by
  simp [Task.isOf, Option.any_eq_true]

/-- All that led to a state with the observers in their seats fits them. -/
theorem fits_play (config : Config) (home : Place) (past future : List Move)
    (hseat : ∀ k o, k ≠ slot →
      ((new config home).play (past ++ future)).observers[k]? = some o → o = seat k)
    (hquiet : ((new config home).play (past ++ future)).Reticent) :
    ((new config home).play past).Fits slot seat := by
  have hseated := seated_play config home past
  rw [play_append] at hseat hquiet
  have hquiet : ((new config home).play past).Reticent :=
    fun n hn => hquiet n (notices_play future hn)
  constructor
  · exact attributed_play config home past
  · intro t ht p left hc x hx hslot
    refine hseat x.2 x.1 hslot ?_
    exact getElem?_of_prefix (observers_prefix_play future _)
      ((hseated.tasks t ht).left p left hc x hx)
  · exact hquiet
  · intro t ht hown
    obtain ⟨n, hn, -⟩ := isOf_iff.mp hown
    have hnotice : n ∈ ((new config home).play past).notices :=
      mem_notices.mpr ⟨t, ht, hn⟩
    refine ⟨uncalled_play config home past t ht n hn (hquiet n hnotice), ?_⟩
    intro hc act hact
    have hacts := ((hseated.tasks t ht).acts n hn (by simp [hc])).1
    exact hquiet n hnotice act (hacts.subset hact)

/-! ## Moves -/

/-- The move is a turn of a notification of the slot. -/
def isOwnTurn (s : State) (slot : Nat) : Move → Bool
  | .join _ _ => false
  | .step task => s.isTaskOf slot task

/-- The moves of an execution, but for the turns of the notifications of a slot. -/
def movesBesides (s : State) (slot : Nat) (moves : List Move) : List Move :=
  (moves.filter fun m => !(s.play moves).isOwnTurn slot m).map Move.anonymous

theorem isTaskOf_play (moves : List Move) (ht : s.tasks[i]? = some t) :
    (s.play moves).isTaskOf slot i = t.isOf slot := by
  obtain ⟨u, hu, hrole⟩ := role_kept_play moves ht
  rw [isTaskOf_eq hu, Task.isOf, Task.isOf, Task.notice?_congr hrole]

theorem besides_join (h : s.Attributed) (place : Place) (acts : List Act) :
    (s.spawn (Task.caller place acts)).besides slot seat =
      ((s.besides slot seat).spawn (Task.caller place (acts.map Act.anonymous))).reseat seat := by
  rw [besides_spawn h]
  exact Eq.symm (reseat_eq rfl)

/-- The execution without what is a slot's own. -/
theorem besides_play (moves : List Move)
    (h : ∀ past future, moves = past ++ future → (s.play past).Fits slot seat) :
    (s.play moves).besides slot seat =
      (s.movesBesides slot moves).foldl (fun s m => (s.move m).reseat seat)
        (s.besides slot seat) := by
  induction moves generalizing s with
  | nil => rfl
  | cons m moves ih =>
      have hfits : s.Fits slot seat := h [] (m :: moves) rfl
      have ih := ih (s := s.move m) fun past future heq => h (m :: past) future (by rw [heq]; rfl)
      refine ih.trans ?_
      cases m with
      | join place acts =>
          have hkept : s.movesBesides slot (.join place acts :: moves) =
              .join place (acts.map Act.anonymous) ::
                (s.spawn (Task.caller place acts)).movesBesides slot moves := rfl
          rw [hkept, List.foldl_cons, move, besides_join hfits.attributed]
          rfl
      | step i =>
          -- a task that is there is whose it is in the end; one that is not does nothing
          have hturn : (s.isTaskOf slot i = ((s.step i).play moves).isTaskOf slot i) ∨
              s.step i = s ∧ s.isTaskOf slot i = false := by
            cases ht : s.tasks[i]? with
            | none => exact .inr ⟨by rw [step, ht], by rw [isTaskOf, ht]; rfl⟩
            | some t =>
                exact .inl ((isTaskOf_eq ht).trans (isTaskOf_play (.step i :: moves) ht).symm)
          cases hown : ((s.step i).play moves).isTaskOf slot i with
          | true =>
              have hdropped : s.movesBesides slot (.step i :: moves) =
                  (s.step i).movesBesides slot moves := by
                refine congrArg (List.map Move.anonymous) (List.filter_cons_of_neg ?_)
                show ¬(!((s.step i).play moves).isTaskOf slot i) = true
                simp [hown]
              have hsame : (s.step i).besides slot seat = s.besides slot seat := by
                rcases hturn with hturn | ⟨hidle, -⟩
                · exact (step_spec i s).besides_eq hfits (hturn.trans hown)
                · rw [hidle]
              rw [hdropped, move, hsame]
          | false =>
              have hkept : s.movesBesides slot (.step i :: moves) =
                  .step i :: (s.step i).movesBesides slot moves := by
                refine congrArg (List.map Move.anonymous) (List.filter_cons_of_pos ?_)
                show (!((s.step i).play moves).isTaskOf slot i) = true
                simp [hown]
              have hother : s.isTaskOf slot i = false := by
                rcases hturn with hturn | ⟨-, hnone⟩
                · exact hturn.trans hown
                · exact hnone
              rw [hkept, List.foldl_cons, move, besides_step hfits hother]
              rfl

/-! ## What others can see -/

/-- What the observer of a slot recorded, in the order of recording. -/
def records (s : State) (slot : Nat) : List Record :=
  s.history.filterMap (s.recordOf? slot)

/-- Nobody but the observer of the slot can tell the states apart. -/
structure AlikeBesides (slot : Nat) (s s' : State) : Prop where
  /-- The same publishes have drawn the same numbers. -/
  publications : s.publications = s'.publications
  lastNumber : s.lastNumber = s'.lastNumber
  /-- The same calls have been made and answered, and so on, in the same order. -/
  history : s.historyBesides slot = s'.historyBesides slot
  /-- Every slot has been sent the same copies. -/
  received : ∀ k, s.received k = s'.received k
  /-- The other observers have recorded the same. -/
  records : ∀ k, k ≠ slot → s.records k = s'.records k
  /-- The traces are the same, and so are the lines on account of the other observers. -/
  log : s.logBesides slot = s'.logBesides slot

theorem filterMap_historyBesides {β : Type} {f g : Entry → Option β}
    (hown : ∀ x, x.actor?.any (s.isTaskOf slot) = true → f x = none)
    (hother : ∀ x, x.actor?.any (s.isTaskOf slot) = false → g x.anonymous = f x) :
    (s.historyBesides slot).filterMap g = s.history.filterMap f := by
  rw [historyBesides, List.filterMap_map, List.filterMap_filter]
  apply List.filterMap_congr
  intro x _
  cases hx : x.actor?.any (s.isTaskOf slot) with
  | true => simp [hown x hx]
  | false => simp [hother x hx]

theorem publications_besides (s : State) :
    (s.historyBesides slot).filterMap Entry.publication? = s.publications := by
  refine filterMap_historyBesides ?_ ?_
  · intro x hx
    cases x with
    | numbered p => cases hx
    | _ => rfl
  · intro x _
    cases x <;> rfl

theorem recordOf?_own {k j : Nat} (hk : k ≠ slot) (hj : s.isTaskOf slot j = true) (e : Event) :
    s.recordOf? k (.kept j e) = none := by
  unfold recordOf?
  dsimp only
  cases ht : s.tasks[j]? with
  | none => rfl
  | some t =>
      rw [isTaskOf_eq ht] at hj
      obtain ⟨n, hn, hslot⟩ := isOf_iff.mp hj
      rw [Option.bind_eq_bind, Option.bind_some]
      cases hr : t.role with
      | caller => rfl
      | delivery m =>
          rw [Task.notice?, hr] at hn
          obtain rfl : m = n := Option.some.inj hn
          exact if_neg (by rw [hslot]; exact Ne.symm hk)

theorem recordOf?_other {k j : Nat} (hj : s.isTaskOf slot j = false) (e : Event) :
    (s.besides slot seat).recordOf? k (.kept j e) = s.recordOf? k (.kept j e) := by
  unfold recordOf?
  dsimp only
  rw [getElem?_besides]
  cases ht : s.tasks[j]? with
  | none => rfl
  | some t =>
      rw [isTaskOf_eq ht] at hj
      rw [Option.map_some, besides_of_other hj]
      rfl

theorem records_besides {k : Nat} (hk : k ≠ slot) :
    (s.historyBesides slot).filterMap ((s.besides slot seat).recordOf? k) = s.records k := by
  refine filterMap_historyBesides ?_ ?_
  · intro x hx
    cases x with
    | kept j e => exact recordOf?_own hk hx e
    | _ => rfl
  · intro x hx
    cases x with
    | kept j e => exact recordOf?_other hx e
    | _ => rfl

/-- A notification is about the same copy and the same slot. -/
theorem notice?_besides (t : Task) :
    (t.besides slot seat).notice?.map (fun n => (n.publication.event, n.slot)) =
      t.notice?.map fun n => (n.publication.event, n.slot) := by
  rw [Task.besides]
  split
  · rw [Task.untouched]
    cases hr : t.role with
    | caller => rfl
    | delivery n =>
        simp only [Task.notice?, Task.delivery, hr]
        rfl
  · rfl

theorem deliveries_besides (s : State) : (s.besides slot seat).deliveries = s.deliveries := by
  unfold deliveries notices
  rw [List.map_filterMap, List.map_filterMap, besides, Array.toList_map, List.filterMap_map]
  apply List.filterMap_congr
  intro t _
  exact notice?_besides t

/-- What the blanked states have in common, the states have. -/
theorem alike_of_besides (h : s.besides slot seat = s'.besides slot seat) :
    AlikeBesides slot s s' := by
  have hhist : s.historyBesides slot = s'.historyBesides slot :=
    congrArg (fun s : State => s.journal.toList) h
  have hissued : (s.besides slot seat).issued = (s'.besides slot seat).issued :=
    congrArg issued h
  have hdel : s.deliveries = s'.deliveries := by
    rw [← deliveries_besides s, ← deliveries_besides s', h]
  constructor
  · rw [← publications_besides s, hhist, publications_besides]
  · exact congrArg UInt64.ofNat hissued
  · exact hhist
  · intro k
    rw [received, received, hdel]
  · intro k hk
    rw [← records_besides hk, ← records_besides hk, hhist, h]
  · exact congrArg (fun s : State => s.log.toList) h

/-- **Observers are isolated from one another.** Let two executions differ in nothing but the
observer in one slot and the turns of its notifications, and let the observers not call the bus.
Then all that is not the slot's own is the same.  And however the observers react, whoever calls
the bus gets through: a caller that gets its turns makes all its calls, and each is answered. -/
theorem observers_isolated (config : Config) (home : Place) (slot : Nat) (moves moves' : List Move)
    (hmoves : (new config home).movesBesides slot moves =
      (new config home).movesBesides slot moves')
    (hothers : ∀ k, k ≠ slot → ((new config home).play moves).observers[k]? =
      ((new config home).play moves').observers[k]?)
    (hquiet : ((new config home).play moves).Reticent)
    (hquiet' : ((new config home).play moves').Reticent) :
    AlikeBesides slot ((new config home).play moves) ((new config home).play moves') ∧
      ∀ (future : List Move) (i : Nat) (t : Task),
        ((new config home).play moves').tasks[i]? = some t → t.role = .caller →
        t.turns ((new config home).play (moves' ++ future)).observers.length ≤ turnsOf i future →
        ((new config home).play (moves' ++ future)).Served i
          (((new config home).play moves').requests i ++ t.todo.filter Act.isCall) := by
  refine ⟨?_, fun future i t ht hr hturns => callers_served config home moves' future ht hr hturns⟩
  -- who sits where is read off the first execution
  obtain ⟨seat, hseat⟩ : ∃ seat : Nat → Observer, ∀ k o,
      ((new config home).play moves).observers[k]? = some o → o = seat k :=
    ⟨fun k => (((new config home).play moves).observers[k]?).getD default,
      fun k o ho => by simp [ho]⟩
  have hsame : ((new config home).play moves).besides slot seat =
      ((new config home).play moves').besides slot seat := by
    rw [besides_play moves, besides_play moves', hmoves]
    · rintro past future rfl
      refine fits_play config home past future (fun k o hk ho => hseat k o ?_) hquiet'
      rw [hothers k hk, ho]
    · rintro past future rfl
      exact fits_play config home past future (fun k o _ ho => hseat k o ho) hquiet
  exact alike_of_besides hsame

/-! ## A rash observer -/

def probed : Event :=
  Event.unpublished default ⟨.task, "probe"⟩ "probe.done"

/-- An observer that records its copy. -/
def diligent : Observer :=
  ⟨some "diligent", fun e => ⟨[.keep e], .returned⟩⟩

/-- An observer that spoils its copy and panics, and panics again when it is asked for a name. -/
def rash : Observer :=
  ⟨none, fun e => ⟨[.keep e.markGood], .panicked (some "rash")⟩⟩

/-- Task 0 registers two observers, and task 1 publishes.  Task 2 notifies the first observer and
task 3 the second. -/
def calmly : List Move :=
  [.join .thread [.register diligent, .register diligent], .step 0, .step 0, .step 0, .step 0,
    .step 0, .step 0, .join .thread [.publish probed], .step 1, .step 1, .step 1, .step 1, .step 1,
    .step 1, .step 1, .step 2, .step 3, .step 3, .step 3]

/-- The same with another first observer, which is told as soon as it can be. -/
def rashly : List Move :=
  [.join .thread [.register rash, .register diligent], .step 0, .step 0, .step 0, .step 0,
    .step 0, .step 0, .join .thread [.publish probed], .step 1, .step 1, .step 1, .step 1, .step 1,
    .step 2, .step 2, .step 2, .step 1, .step 1, .step 3, .step 3, .step 3]

def probing : Publication :=
  ⟨2, 1, 1, { probed with id := UInt64.ofNat 1 }⟩

set_option maxRecDepth 8000 in
theorem calmly_tasks : ((new default .thread).play calmly).tasks =
    #[⟨.thread, .caller, .ready, [], .returned⟩, ⟨.thread, .caller, .ready, [], .returned⟩,
      ⟨.thread, .delivery ⟨probing, 0, diligent⟩, .ready, [.keep probing.event], .returned⟩,
      ⟨.thread, .delivery ⟨probing, 1, diligent⟩, .finished, [], .returned⟩] :=
  rfl

set_option maxRecDepth 8000 in
theorem rashly_tasks : ((new default .thread).play rashly).tasks =
    #[⟨.thread, .caller, .ready, [], .returned⟩, ⟨.thread, .caller, .ready, [], .returned⟩,
      ⟨.thread, .delivery ⟨probing, 0, rash⟩, .finished, [], .panicked (some "rash")⟩,
      ⟨.thread, .delivery ⟨probing, 1, diligent⟩, .finished, [], .returned⟩] :=
  rfl

theorem rashly_movesBesides : (new default .thread).movesBesides 0 calmly =
    (new default .thread).movesBesides 0 rashly := by
  rw [movesBesides, movesBesides]
  unfold isOwnTurn isTaskOf
  rw [calmly_tasks, rashly_tasks]
  rfl

set_option maxRecDepth 8000 in
theorem rashly_others (k : Nat) (hk : k ≠ 0) : ((new default .thread).play calmly).observers[k]? =
    ((new default .thread).play rashly).observers[k]? := by
  have hcalm : ((new default .thread).play calmly).observers = [diligent, diligent] := rfl
  have hrash : ((new default .thread).play rashly).observers = [rash, diligent] := rfl
  rw [hcalm, hrash]
  cases k with
  | zero => exact absurd rfl hk
  | succ k => rfl

theorem calmly_reticent : ((new default .thread).play calmly).Reticent := by
  have hnotices : ((new default .thread).play calmly).notices =
      [⟨probing, 0, diligent⟩, ⟨probing, 1, diligent⟩] := by
    rw [notices, calmly_tasks]
    rfl
  intro n hn
  rw [hnotices] at hn
  rcases List.mem_pair.mp hn with rfl | rfl
  all_goals simp [diligent, Observer.react, Reaction.acts, Act.isCall]

theorem rashly_reticent : ((new default .thread).play rashly).Reticent := by
  have hnotices : ((new default .thread).play rashly).notices =
      [⟨probing, 0, rash⟩, ⟨probing, 1, diligent⟩] := by
    rw [notices, rashly_tasks]
    rfl
  intro n hn
  rw [hnotices] at hn
  rcases List.mem_pair.mp hn with rfl | rfl
  · simp [rash, Observer.react, Reaction.acts, Act.isCall]
  · simp [diligent, Observer.react, Reaction.acts, Act.isCall]

/-- The first observer panics in one execution and not in the other, and nobody else notices. -/
theorem rashly_isolated :
    (new default .thread).movesBesides 0 calmly = (new default .thread).movesBesides 0 rashly ∧
      ((new default .thread).play calmly).Reticent ∧ ((new default .thread).play rashly).Reticent ∧
      AlikeBesides 0 ((new default .thread).play calmly) ((new default .thread).play rashly) :=
  ⟨rashly_movesBesides, calmly_reticent, rashly_reticent,
    (observers_isolated default .thread 0 calmly rashly rashly_movesBesides rashly_others
      calmly_reticent rashly_reticent).1⟩

end State

end FlowEvents.Bus
