import FlowEvents.Proofs.Bus.Coherence

/-! # Observers keep their slots

Slots are never given back, so whoever was listed for a slot, or notified in it, still sits there.
And a notification that has begun goes through the reaction of its own observer to its own copy, act
by act, without leaving any out or going back to one.
-/

namespace FlowEvents.Bus

theorem getElem?_of_prefix {α : Type} {xs ys : List α} {k : Nat} {x : α} (h : xs <+: ys)
    (hx : xs[k]? = some x) : ys[k]? = some x := by
  obtain ⟨rest, rfl⟩ := h
  rwa [List.getElem?_append_left (List.getElem?_eq_some_iff.mp hx).1]

/-- Its observers sit where it says.  If it is a notification that has begun, then the acts still to
come are the last ones of the reaction; once it is over, none are. -/
structure Task.Seated (observers : List Observer) (t : Task) : Prop where
  left : ∀ p left, t.control = .sending p left → ∀ x ∈ left, observers[x.2]? = some x.1
  slot : ∀ n, t.notice? = some n → observers[n.slot]? = some n.observer
  acts : ∀ n, t.notice? = some n → t.control ≠ .waiting →
    t.todo <:+ (n.observer.react n.publication.event).acts ∧
      t.ending = (n.observer.react n.publication.event).ending
  finished : t.control = .finished → t.todo = [] ∧ t.ending ≠ .pending

/-- A caller from outside has no notice, and lists nobody before it publishes. -/
theorem Task.seated_caller (observers : List Observer) (place : Place) (acts : List Act) :
    (Task.caller place acts).Seated observers where
  left := fun p left hc => by cases hc
  slot := fun n hn => by cases hn
  acts := fun n hn => by cases hn
  finished := fun hc => by cases hc

theorem Task.Seated.mono {observers observers' : List Observer} {t : Task}
    (h : t.Seated observers) (hle : observers <+: observers') : t.Seated observers' where
  left := fun p left hc x hx => getElem?_of_prefix hle (h.left p left hc x hx)
  slot := fun n hn => getElem?_of_prefix hle (h.slot n hn)
  acts := h.acts
  finished := h.finished

/-- A step within the acts. -/
theorem Task.Seated.act {observers : List Observer} {t t' : Task} (h : t.Seated observers)
    (hrole : t'.role = t.role) (hwait : t.control ≠ .waiting) (htodo : t'.todo <:+ t.todo)
    (hending : t'.ending = t.ending)
    (hleft : ∀ p left, t'.control = .sending p left → ∀ x ∈ left, observers[x.2]? = some x.1)
    (hover : t'.control = .finished → t'.todo = [] ∧ t'.ending ≠ .pending) :
    t'.Seated observers := by
  have hnotice : t'.notice? = t.notice? := Task.notice?_congr hrole
  constructor
  · exact hleft
  · intro n hn
    exact h.slot n (hnotice ▸ hn)
  · intro n hn _
    obtain ⟨hacts, hend⟩ := h.acts n (hnotice ▸ hn) hwait
    exact ⟨htodo.trans hacts, hending.trans hend⟩
  · exact hover

namespace State

/-- Everyone sits where they were put. -/
structure Seated (s : State) : Prop where
  tasks : ∀ t ∈ s.tasks, t.Seated s.observers
  enrolled : ∀ call slot i o, .enrolling call i o ∈ s.history → .enrolled call slot ∈ s.history →
    s.observers[slot]? = some o

variable {s s' : State} {i : Nat} {t t' : Task}

/-- A notification goes to the observer in its slot. -/
theorem Seated.observer_of_notice (h : s.Seated) {n : Notice} (hn : n ∈ s.notices) :
    s.observers[n.slot]? = some n.observer := by
  obtain ⟨t, ht, hnotice⟩ := mem_notices.mp hn
  exact (h.tasks t ht).slot n hnotice

theorem mem_tasks_of_set {u : Task} (htasks : s'.tasks = s.tasks.setIfInBounds i t')
    (hu : u ∈ s'.tasks) : u ∈ s.tasks ∨ u = t' := by
  rw [htasks] at hu
  exact Array.mem_or_eq_of_mem_setIfInBounds hu

/-- A step that gives no slot away. -/
theorem Seated.advance (h : s.Seated) (htasks : s'.tasks = s.tasks.setIfInBounds i t')
    (hobs : s'.observers = s.observers) (ht' : t'.Seated s.observers)
    (hhist : ∀ call slot j o, .enrolling call j o ∈ s'.history → .enrolled call slot ∈ s'.history →
      .enrolling call j o ∈ s.history ∧ .enrolled call slot ∈ s.history) : s'.Seated where
  tasks := by
    intro u hu
    rw [hobs]
    rcases mem_tasks_of_set htasks hu with hu | rfl
    · exact h.tasks u hu
    · exact ht'
  enrolled := by
    intro call slot j o hopen htaken
    obtain ⟨hopen, htaken⟩ := hhist call slot j o hopen htaken
    rw [hobs]
    exact h.enrolled call slot j o hopen htaken

/-- An entry that is not about a registration changes nothing about the slots. -/
theorem seats_of_concat {x : Entry} (hhist : s'.history = s.history ++ [x])
    (hx : ∀ call j o, x ≠ .enrolling call j o) (hx' : ∀ call slot, x ≠ .enrolled call slot)
    (call slot j : Nat) (o : Observer) (hopen : .enrolling call j o ∈ s'.history)
    (htaken : .enrolled call slot ∈ s'.history) :
    .enrolling call j o ∈ s.history ∧ .enrolled call slot ∈ s.history := by
  rw [hhist, List.mem_append, List.mem_singleton] at hopen htaken
  rcases hopen with hopen | hopen
  · rcases htaken with htaken | htaken
    · exact ⟨hopen, htaken⟩
    · exact absurd htaken.symm (hx' call slot)
  · exact absurd hopen.symm (hx call j o)

/-- A step of a task that goes on to its next act. -/
theorem Seated.next (h : s.Seated) (ht : s.tasks[i]? = some t)
    (htasks : s'.tasks = s.tasks.setIfInBounds i t') (hobs : s'.observers = s.observers)
    (hrole : t'.role = t.role) (hwait : t.control ≠ .waiting) (htodo : t'.todo <:+ t.todo)
    (hending : t'.ending = t.ending)
    (hleft : ∀ p left, t'.control = .sending p left → ∀ x ∈ left, s.observers[x.2]? = some x.1)
    (hover : t'.control = .finished → t'.todo = [] ∧ t'.ending ≠ .pending)
    (hhist : ∀ call slot j o, .enrolling call j o ∈ s'.history → .enrolled call slot ∈ s'.history →
      .enrolling call j o ∈ s.history ∧ .enrolled call slot ∈ s.history) : s'.Seated :=
  h.advance htasks hobs ((h.tasks t (Array.mem_of_getElem? ht)).act hrole hwait htodo hending hleft
    hover) hhist

theorem Seated.of_step (h : s.Seated) (hco : s.Coherent) (hstep : Step i s s') : s'.Seated := by
  have idle : ∀ call slot j o, Entry.enrolling call j o ∈ s.history →
      Entry.enrolled call slot ∈ s.history →
      Entry.enrolling call j o ∈ s.history ∧ Entry.enrolled call slot ∈ s.history :=
    fun _ _ _ _ hopen htaken => ⟨hopen, htaken⟩
  cases hstep with
  | idle => exact h
  | opened t ht hc hr =>
      refine h.advance rfl rfl ?_ idle
      constructor
      · intro p left hc
        cases hc
      · intro n hn
        rw [Task.notice?, hr] at hn
        cases hn
      · intro n hn
        rw [Task.notice?, hr] at hn
        cases hn
      · intro hc
        cases hc
  | started t notice reaction ht hc hr hreact =>
      refine h.advance rfl rfl ?_ (seats_of_concat (history_eq_concat rfl) (by simp) (by simp))
      constructor
      · intro p left hc
        cases hc
      · intro n hn
        exact (h.tasks t (Array.mem_of_getElem? ht)).slot n hn
      · intro n hn _
        rw [Task.notice?, hr] at hn
        obtain rfl : notice = n := Option.some.inj hn
        subst hreact
        exact ⟨List.suffix_rfl, rfl⟩
      · intro hc
        cases hc
  | stayed t ht hc htodo hend =>
      exact h.next ht rfl rfl rfl (by simp [hc]) List.suffix_rfl rfl (by simp) (by simp) idle
  | ended t ht hc htodo hend =>
      exact h.next ht rfl rfl rfl (by simp [hc]) List.suffix_rfl rfl (by simp)
        (fun _ => ⟨htodo, hend⟩) (seats_of_concat (history_eq_concat rfl) (by simp) (by simp))
  | called t e todo ht hc htodo =>
      refine h.next ht rfl rfl rfl (by simp [hc]) ?_ rfl (by simp) (by simp)
        (seats_of_concat (history_eq_concat rfl) (by simp) (by simp))
      rw [htodo]
      exact List.suffix_cons _ _
  | enrolling t o todo ht hc htodo =>
      refine h.next ht rfl rfl rfl (by simp [hc]) ?_ rfl (by simp) (by simp) ?_
      · rw [htodo]
        exact List.suffix_cons _ _
      · -- the call is new, so no slot has been taken in it
        intro call slot j o' hopen htaken
        rw [history_eq_concat rfl, List.mem_append, List.mem_singleton] at hopen htaken
        have htaken : .enrolled call slot ∈ s.history := htaken.resolve_right (by simp)
        rcases hopen with hopen | hopen
        · exact ⟨hopen, htaken⟩
        · obtain ⟨rfl, -, -⟩ := Entry.enrolling.inj hopen
          have hmem : Entry.enrolled s.calls slot ∈ story s.calls s.history :=
            mem_story.mpr ⟨htaken, rfl⟩
          rw [hco.calls s.calls (Nat.le_refl _)] at hmem
          cases hmem
  | written t line todo ht hc htodo =>
      refine h.next ht rfl rfl rfl (by simp [hc]) ?_ rfl (by simp [hc]) (by simp [hc]) idle
      rw [htodo]
      exact List.suffix_cons _ _
  | kept t e todo ht hc htodo =>
      refine h.next ht rfl rfl rfl (by simp [hc]) ?_ rfl (by simp [hc]) (by simp [hc])
        (seats_of_concat (history_eq_concat rfl) (by simp) (by simp))
      rw [htodo]
      exact List.suffix_cons _ _
  | numbered t call e p ht hc hp =>
      exact h.next ht rfl rfl rfl (by simp [hc]) List.suffix_rfl rfl (by simp) (by simp)
        (seats_of_concat (history_eq_concat rfl) (by simp) (by simp))
  | traced t p ht hc =>
      exact h.next ht rfl rfl rfl (by simp [hc]) List.suffix_rfl rfl (by simp) (by simp) idle
  | listed t p ht hc =>
      refine h.next ht rfl rfl rfl (by simp [hc]) List.suffix_rfl rfl ?_ (by simp)
        (seats_of_concat (history_eq_concat rfl) (by simp) (by simp))
      intro q left hleft x hx
      obtain ⟨-, rfl⟩ := Control.sending.inj hleft
      exact List.mem_zipIdx_iff_getElem?.mp hx
  | returned t p ht hc =>
      exact h.next ht rfl rfl rfl (by simp [hc]) List.suffix_rfl rfl (by simp) (by simp)
        (seats_of_concat (history_eq_concat rfl) (by simp) (by simp))
  | sent t p o slot left ht hc =>
      have hseats := (h.tasks t (Array.mem_of_getElem? ht)).left p _ hc
      constructor
      · intro u hu
        rcases Array.mem_push.mp hu with hu | rfl
        · rcases Array.mem_or_eq_of_mem_setIfInBounds hu with hu | rfl
          · exact h.tasks u hu
          · refine (h.tasks t (Array.mem_of_getElem? ht)).act rfl (by simp [hc]) List.suffix_rfl
              rfl ?_ (by simp)
            intro q left' hleft x hx
            obtain ⟨-, rfl⟩ := Control.sending.inj hleft
            exact hseats x (List.mem_cons_of_mem _ hx)
        · constructor
          · intro q left' hleft
            cases hleft
          · intro n hn
            obtain rfl := Option.some.inj hn
            exact hseats (o, slot) List.mem_cons_self
          · intro n hn hwait
            exact absurd rfl hwait
          · intro hc
            cases hc
      · intro call slot' j o' hopen htaken
        obtain ⟨hopen, htaken⟩ := seats_of_concat (history_eq_concat rfl) (by simp) (by simp)
          call slot' j o' hopen htaken
        exact h.enrolled call slot' j o' hopen htaken
  | enrolled t call o ht hc =>
      have hgrown : s.observers <+: s.observers ++ [o] := List.prefix_append _ _
      constructor
      · intro u hu
        rcases Array.mem_or_eq_of_mem_setIfInBounds hu with hu | rfl
        · exact (h.tasks u hu).mono hgrown
        · have hact : Task.Seated s.observers
              { t with control := .enrolled call s.observers.length } :=
            (h.tasks t (Array.mem_of_getElem? ht)).act rfl (by simp [hc]) List.suffix_rfl rfl
              (by simp) (by simp)
          exact hact.mono hgrown
      · intro call' slot j o' hopen htaken
        rw [history_eq_concat rfl, List.mem_append, List.mem_singleton] at hopen htaken
        have hpast : .enrolling call' j o' ∈ s.history := hopen.resolve_right (by simp)
        rcases htaken with htaken | htaken
        · exact getElem?_of_prefix hgrown (h.enrolled call' slot j o' hpast htaken)
        · -- the journal told who it is that takes the slot
          obtain ⟨rfl, rfl⟩ := Entry.enrolled.inj htaken
          have htold := (hco.tasks i t ht).told
          rw [hc] at htold
          have hmem : Entry.enrolling call' j o' ∈ story call' s.history :=
            mem_story.mpr ⟨hpast, rfl⟩
          rw [show story call' s.history = [.enrolling call' i o] from htold,
            List.mem_singleton] at hmem
          obtain ⟨-, -, rfl⟩ := Entry.enrolling.inj hmem
          exact List.getElem?_concat_length
  | registered t call slot ht hc =>
      exact h.next ht rfl rfl rfl (by simp [hc]) List.suffix_rfl rfl (by simp) (by simp)
        (seats_of_concat (history_eq_concat rfl) (by simp) (by simp))

theorem seated_new (config : Config) (home : Place) : (new config home).Seated where
  tasks := fun t ht => absurd ht (Array.not_mem_empty t)
  enrolled := fun call slot i o hopen => by cases hopen

/-- **Seating.** Whatever happens around a bus, the observers keep their slots and every
notification is about the one in its slot. -/
theorem seated_play (config : Config) (home : Place) (moves : List Move) :
    ((new config home).play moves).Seated := by
  have both : ((new config home).play moves).Coherent ∧ ((new config home).play moves).Seated := by
    refine play_induction (motive := fun s => s.Coherent ∧ s.Seated)
      ⟨coherent_new config home, seated_new config home⟩ ?_ ?_ moves
    · rintro s place acts ⟨hco, h⟩
      refine ⟨hco.join place acts, ?_, h.enrolled⟩
      intro t ht
      rcases Array.mem_push.mp ht with ht | rfl
      · exact h.tasks t ht
      · exact Task.seated_caller _ place acts
    · rintro s i ⟨hco, h⟩
      exact ⟨hco.of_step (step_spec i s), h.of_step hco (step_spec i s)⟩
  exact both.2

end State

end FlowEvents.Bus
