import FlowEvents.Proofs.Bus.Serial

/-! # Concurrent publishing refines sequential publishing

An execution that has settled shows the same as a sequential one.  The number of publishers and the
order in which they, the traces and the notifications got their turns leave no mark.
-/

namespace FlowEvents.Bus

namespace State

variable {s s' : State}

theorem Coherent.event_id (h : s.Coherent) {k : Nat} {p : Publication}
    (hk : s.publications[k]? = some p) : p.event.id = UInt64.ofNat (k + 1) := by
  have hnumber : (s.publications.map (·.number))[k]? = some p.number := by
    rw [List.getElem?_map, hk]
    rfl
  have hnumbers : s.publications.map (·.number) = List.range' 1 (drawn s.history) :=
    h.lawful.numbers
  have hlt : k < drawn s.history := by
    have := (List.getElem?_eq_some_iff.mp hk).1
    rwa [h.length_publications, h.issued] at this
  rw [hnumbers, List.getElem?_range' hlt] at hnumber
  obtain ⟨e, -, he⟩ := h.event_given (List.mem_of_getElem? hk)
  rw [he, ← Option.some.inj hnumber, Nat.one_mul, Nat.add_comm]

/-- The ids follow from the order, so events that are the same but for them are the same. -/
theorem Coherent.events_eq (h : s.Coherent) (h' : s'.Coherent)
    (heq : s.publications.map (·.event.unnumbered) = s'.publications.map (·.event.unnumbered)) :
    s.publications.map (·.event) = s'.publications.map (·.event) := by
  apply List.ext_getElem?
  intro k
  have hk := congrArg (·[k]?) heq
  simp only [List.getElem?_map] at hk ⊢
  cases hp : s.publications[k]? with
  | none =>
      rw [hp, Option.map_none] at hk
      rw [Option.map_none, Option.map_eq_none_iff.mp hk.symm, Option.map_none]
  | some p =>
      rw [hp, Option.map_some] at hk
      obtain ⟨q, hq, hunnumbered⟩ := Option.map_eq_some_iff.mp hk.symm
      have hid : p.event.id = q.event.id := by
        rw [h.event_id hp, h'.event_id hq]
      rw [hq, Option.map_some, Option.map_some, Event.ext_unnumbered hunnumbered.symm hid]

/-- In the end every observer has reacted to every event, and so has come to an end with it. -/
theorem Coherent.quiet_of_settled (h : s.Coherent) (hseat : s.Seated)
    (hreg : s.RegisteredFirst) (hs : s.Settled)
    (hquiet : ∀ n ∈ s.notices, ∀ act ∈ (n.observer.react n.publication.event).acts,
      act.isCall = false) :
    ∀ o ∈ s.observers, ∀ e ∈ s.publications.map (·.event), (o.react e).Quiet := by
  intro o ho e he
  obtain ⟨p, hp, rfl⟩ := List.mem_map.mp he
  -- all to all: this observer has a notification about this event, and it has run
  obtain ⟨slot, hslot⟩ := List.mem_iff_getElem?.mp ho
  have hlt : slot < s.observers.length := (List.getElem?_eq_some_iff.mp hslot).1
  have hmem : (p, slot) ∈ s.notices.map fun n => (n.publication, n.slot) := by
    rw [(h.notices_perm hreg hs).mem_iff, List.mem_product]
    exact ⟨hp, List.mem_range.mpr hlt⟩
  obtain ⟨n, hn, heq⟩ := List.mem_map.mp hmem
  obtain ⟨rfl, rfl⟩ := Prod.mk.inj heq
  obtain ⟨t, ht, hnotice⟩ := mem_notices.mp hn
  have hseated := hseat.tasks t ht
  have hobserver : n.observer = o := Option.some.inj ((hseated.slot n hnotice).symm.trans hslot)
  have hfinished := hs.run t ht (by rw [hnotice]; rfl)
  obtain ⟨-, hending⟩ := hseated.acts n hnotice (by rw [hfinished]; simp)
  subst hobserver
  exact ⟨hquiet n hn, hending ▸ (hseated.finished hfinished).2⟩

/-- **Concurrent publishing refines sequential publishing.** Let all observers be registered before
the first publish, let none of them publish or register in a reaction, and let every notification
have run.  Then the outcome is that of every sequential execution that publishes the same events in
the order of their ids, and there is such an execution. -/
theorem concurrent_refines_sequential (config : Config) (home : Place) (moves : List Move)
    (hcalls : ∀ m ∈ moves, m.OnlyCalls)
    (hreg : ((new config home).play moves).RegisteredFirst)
    (hquiet : ∀ n ∈ ((new config home).play moves).notices,
      ∀ act ∈ (n.observer.react n.publication.event).acts, act.isCall = false)
    (hs : ((new config home).play moves).Settled) :
    (∀ (home' : Place) (moves' : List Move), (∀ m ∈ moves', m.OnlyCalls) →
      ((new config home').play moves').Sequential ((new config home).play moves).observers
        (((new config home).play moves).publications.map (·.event)) →
      SameOutcome ((new config home).play moves) ((new config home').play moves')) ∧
    ∀ home' place : Place, ∃ schedule : List Nat,
      ((new config home').play (.join place (script ((new config home).play moves).observers
        (((new config home).play moves).publications.map (·.event))) ::
          schedule.map .step)).Sequential ((new config home).play moves).observers
        (((new config home).play moves).publications.map (·.event)) := by
  have hco := coherent_play config home moves
  constructor
  · intro home' moves' hcalls' hseq
    have hco' := coherent_play config home' moves'
    have hevents := hseq.events
    rw [List.map_map] at hevents
    exact same_outcome config home home' hcalls hcalls' hreg hseq.registeredFirst hs hseq.settled
      hseq.observers.symm (hco'.events_eq hco hevents).symm
  · intro home' place
    refine exists_sequential config home' place _ _ ?_
      (hco.quiet_of_settled (seated_play config home moves) hreg hs hquiet)
    intro k e he
    rw [List.getElem?_map] at he
    obtain ⟨p, hp, rfl⟩ := Option.map_eq_some_iff.mp he
    exact hco.event_id hp

/-! ## Two publishers -/

def probe : Event :=
  Event.unpublished default ⟨.task, "probe"⟩ "probe.done"

/-- Task 0 registers an observer; tasks 1 and 2 publish.  Task 2 calls last but draws first, and its
notification, task 4, is over before the one that was created first. -/
def overtaking : List Move :=
  [.join .thread [.register default], .step 0, .step 0, .step 0,
    .join .thread [.publish probe], .join .thread [.publish probe.markGood], .step 1, .step 2,
    .step 2, .step 1, .step 1, .step 1, .step 1, .step 2, .step 2, .step 2, .step 4, .step 4,
    .step 1, .step 2, .step 3, .step 3]

def overtaken : Publication :=
  ⟨1, 1, 2, { probe with id := UInt64.ofNat 2 }⟩

def overtaker : Publication :=
  ⟨2, 2, 1, { probe.markGood with id := UInt64.ofNat 1 }⟩

set_option maxRecDepth 8000 in
theorem overtaking_history : ((new default .thread).play overtaking).history =
    [.enrolling 0 0 default, .enrolled 0 0, .registered 0 0] ++
      [.called 1 1 probe, .called 2 2 probe.markGood, .numbered overtaker, .numbered overtaken,
        .listed overtaken 1, .sent overtaken 0 3, .listed overtaker 1, .sent overtaker 0 4,
        .started 4, .ended 4, .returned overtaken, .returned overtaker, .started 3, .ended 3] :=
  rfl

set_option maxRecDepth 8000 in
theorem overtaking_tasks : ((new default .thread).play overtaking).tasks =
    #[⟨.thread, .caller, .ready, [], .returned⟩, ⟨.thread, .caller, .ready, [], .returned⟩,
      ⟨.thread, .caller, .ready, [], .returned⟩,
      ⟨.thread, .delivery ⟨overtaken, 0, default⟩, .finished, [], .returned⟩,
      ⟨.thread, .delivery ⟨overtaker, 0, default⟩, .finished, [], .returned⟩] :=
  rfl

theorem overtaking_publications :
    ((new default .thread).play overtaking).publications = [overtaker, overtaken] := by
  have h : ((new default .thread).play overtaking).publications =
      ((new default .thread).play overtaking).history.filterMap Entry.publication? := rfl
  rw [h, overtaking_history]
  rfl

theorem overtaking_registeredFirst :
    ((new default .thread).play overtaking).RegisteredFirst := by
  intro c j e call slot h
  rw [overtaking_history] at h
  have hfront := (h.of_append (by simp)).mem_left
  simp at hfront

theorem overtaking_settled : ((new default .thread).play overtaking).Settled where
  returned := by
    rw [overtaking_publications, overtaking_history]
    simp
  run := by
    rw [overtaking_tasks]
    simp [Task.notice?]

/-- The publish that overtakes is the first of the sequential execution. -/
theorem overtaking_refines_sequential :
    (∀ m ∈ overtaking, m.OnlyCalls) ∧ ((new default .thread).play overtaking).RegisteredFirst ∧
      ((new default .thread).play overtaking).Settled ∧
      ((new default .thread).play overtaking).publications = [overtaker, overtaken] ∧
      ∃ schedule : List Nat, ((new default .thread).play (.join .thread
        (script ((new default .thread).play overtaking).observers
          (((new default .thread).play overtaking).publications.map (·.event))) ::
            schedule.map .step)).Sequential ((new default .thread).play overtaking).observers
          (((new default .thread).play overtaking).publications.map (·.event)) := by
  have hcalls : ∀ m ∈ overtaking, m.OnlyCalls := by
    simp [overtaking, Move.OnlyCalls, Act.isCall]
  have hquiet : ∀ n ∈ ((new default .thread).play overtaking).notices,
      ∀ act ∈ (n.observer.react n.publication.event).acts, act.isCall = false := by
    have hnotices : ((new default .thread).play overtaking).notices =
        [⟨overtaken, 0, default⟩, ⟨overtaker, 0, default⟩] := by
      rw [notices, overtaking_tasks]
      rfl
    rw [hnotices]
    intro n hn act hact
    rcases List.mem_pair.mp hn with rfl | rfl
    · cases hact
    · cases hact
  refine ⟨hcalls, overtaking_registeredFirst, overtaking_settled, overtaking_publications, ?_⟩
  exact (concurrent_refines_sequential default .thread overtaking hcalls
    overtaking_registeredFirst hquiet overtaking_settled).2 .thread .thread

end State

end FlowEvents.Bus
