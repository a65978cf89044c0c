import FlowEvents.Proofs.Bus.Numbering
import FlowEvents.Proofs.Bus.Seating

/-! # Who is notified

Between the drawing of a number and the listing of the observers others may register, and a publish
with the greater number may list before one with the smaller.  What holds in spite of that: each
publish notifies the first slots, each once; whoever was registered before the call is among them,
and whoever asked only after the return is not.
-/

namespace FlowEvents.Bus

/-! ## Registrations -/

variable {journal : List Entry}

/-- Two registrations are the same if they agree in the call or in the slot. -/
theorem Lawful.enrolled_iff (h : Lawful journal) {call call' slot slot' : Nat}
    (hc : .enrolled call slot ∈ journal) (hc' : .enrolled call' slot' ∈ journal) :
    call = call' ↔ slot = slot' := by
  have later : ∀ {m n call call' slot slot' : Nat}, m < n →
      journal[m]? = some (.enrolled call slot) → journal[n]? = some (.enrolled call' slot') →
        call ≠ call' ∧ slot ≠ slot' := by
    intro m n call call' slot slot' hmn hm hn
    obtain ⟨hslot', i, o, hst⟩ := h n _ hn
    constructor
    · rintro rfl
      have hmem : Entry.enrolled call slot ∈ story call (journal.take n) :=
        mem_story.mpr ⟨mem_take_iff.mpr ⟨m, hmn, hm⟩, rfl⟩
      rw [hst, List.mem_singleton] at hmem
      cases hmem
    · have hslot : slot = taken (journal.take m) := (h m _ hm).1
      have hlt := taken_take_lt hm hmn
      omega
  obtain ⟨m, hm⟩ := List.mem_iff_getElem?.mp hc
  obtain ⟨n, hn⟩ := List.mem_iff_getElem?.mp hc'
  -- two entries in different places differ in both, whichever comes first
  rcases Nat.lt_trichotomy m n with hmn | rfl | hmn
  · obtain ⟨hcall, hslot⟩ := later hmn hm hn
    exact iff_of_false hcall hslot
  · obtain ⟨rfl, rfl⟩ := Entry.enrolled.inj (Option.some.inj (hm.symm.trans hn))
    exact iff_of_true rfl rfl
  · obtain ⟨hcall, hslot⟩ := later hmn hn hm
    exact iff_of_false hcall.symm hslot.symm

theorem Lawful.numbered_of_sent (h : Lawful journal) {p : Publication} {slot task : Nat}
    (hp : .sent p slot task ∈ journal) : .numbered p ∈ journal := by
  obtain ⟨n, hn⟩ := List.mem_iff_getElem?.mp hp
  obtain ⟨e, count, tasks, hst, -, -⟩ := h n _ hn
  have hmem : Entry.numbered p ∈ story p.call (journal.take n) := by
    rw [hst]
    simp [publishing]
  obtain ⟨m, -, hm⟩ := exists_before_of_mem_story hmem
  exact List.mem_of_getElem? hm

namespace State

/-! ## Notifications by publish and slot -/

/-- The notifications of a publish, in the order of creation. -/
def noticesOf (s : State) (call : Nat) : List Notice :=
  s.notices.filter fun n => n.publication.call = call

def noticesAt (s : State) (call slot : Nat) : List Notice :=
  (s.noticesOf call).filter fun n => n.slot = slot

/-- How often a notification has begun. -/
def starts (s : State) (task : Nat) : Nat :=
  (s.history.filterMap Entry.started?).count task

def ends (s : State) (task : Nat) : Nat :=
  (s.history.filterMap Entry.ended?).count task

variable {s : State}

theorem Coherent.slots_noticesOf (h : s.Coherent) (call : Nat) :
    (s.noticesOf call).map (·.slot) = slotsSent call s.history := by
  rw [slotsSent, ← h.notices, List.filterMap_map, noticesOf, ← List.filterMap_eq_map,
    List.filterMap_filter]
  apply List.filterMap_congr
  intro n _
  by_cases hn : n.publication.call = call <;> simp [hn]

theorem length_noticesAt (s : State) (call slot : Nat) :
    (s.noticesAt call slot).length = ((s.noticesOf call).map (·.slot)).count slot := by
  rw [noticesAt, ← List.countP_eq_length_filter, List.count, List.countP_map]
  rfl

theorem Coherent.length_noticesAt_eq_one (h : s.Coherent) {call slot : Nat}
    (hslot : slot ∈ slotsSent call s.history) : (s.noticesAt call slot).length = 1 := by
  obtain ⟨m, -, hm⟩ := h.lawful.slotsSent_eq_range call
  rw [hm] at hslot
  rw [length_noticesAt, h.slots_noticesOf, hm]
  exact List.count_eq_one_of_mem List.nodup_range hslot

theorem Coherent.noticesAt_eq_nil (h : s.Coherent) {call slot : Nat}
    (hslot : slot ∉ slotsSent call s.history) : s.noticesAt call slot = [] := by
  rw [← List.length_eq_zero_iff, length_noticesAt, h.slots_noticesOf]
  exact List.count_eq_zero_of_not_mem hslot

theorem Coherent.starts_waiting (h : s.Coherent) {i : Nat} {t : Task}
    (ht : s.tasks[i]? = some t) (hc : t.control = .waiting) : s.starts i = 0 := by
  apply List.count_eq_zero_of_not_mem
  intro hin
  exact ((h.tasks i t ht).started.mp hin).2 hc

theorem Coherent.starts_begun (h : s.Coherent) {i : Nat} {t : Task} {n : Notice}
    (ht : s.tasks[i]? = some t) (hn : t.notice? = some n) (hc : t.control ≠ .waiting) :
    s.starts i = 1 := by
  refine List.count_eq_one_of_mem h.lawful.started_nodup ?_
  rw [(h.tasks i t ht).started, hn]
  exact ⟨rfl, hc⟩

theorem Coherent.ends_le_one (h : s.Coherent) (i : Nat) : s.ends i ≤ 1 :=
  List.nodup_iff_count_le_one.mp h.lawful.ended_nodup i

theorem Coherent.finished_iff (h : s.Coherent) {i : Nat} {t : Task}
    (ht : s.tasks[i]? = some t) : t.control = .finished ↔ s.ends i = 1 := by
  rw [← (h.tasks i t ht).ended]
  constructor
  · exact List.count_eq_one_of_mem h.lawful.ended_nodup
  · intro hone
    rw [ends] at hone
    exact List.count_pos_iff.mp (by omega)

/-- A notification that has not begun begins when its turn comes. -/
theorem Coherent.starts_step (h : s.Coherent) {i : Nat} {t : Task} {n : Notice}
    (ht : s.tasks[i]? = some t) (hn : t.notice? = some n) (hc : t.control = .waiting) :
    (s.step i).starts i = 1 := by
  have hr : t.role = .delivery n := Task.notice?_eq_some.mp hn
  have hhist : (s.step i).history = s.history ++ [.started i] := by
    refine history_eq_concat ?_
    simp only [step, ht, hc, hr]
    rfl
  rw [starts, hhist, filterMap_concat_some (f := Entry.started?) _ rfl, List.count_append]
  have hzero : s.starts i = 0 := h.starts_waiting ht hc
  rw [starts] at hzero
  rw [hzero]
  simp

/-! ## Exactly once -/

/-- The notifications that there are, and how they fare. -/
structure FannedOut (s : State) : Prop where
  /-- A publish notifies the first slots, in their order. -/
  slots : ∀ call, ∃ m ≤ s.observers.length, (s.noticesOf call).map (·.slot) = List.range m
  once : ∀ call slot, (s.noticesAt call slot).length ≤ 1
  /-- Whoever was registered before the call has been notified by the return. -/
  reached : ∀ p call slot i e, .returned p ∈ s.history →
    Precedes s.history (.registered call slot) (.called p.call i e) →
      (s.noticesAt p.call slot).length = 1
  /-- Whoever asked to be registered after the return is not notified. -/
  spared : ∀ p call slot i o, Precedes s.history (.returned p) (.enrolling call i o) →
    .enrolled call slot ∈ s.history → s.noticesAt p.call slot = []
  /-- The copy differs in nothing but its id from the event that was given to the publish. -/
  copies : ∀ n ∈ s.notices, n.publication ∈ s.publications ∧
    ∃ e, .called n.publication.call n.publication.publisher e ∈ s.history ∧
      n.publication.event = { e with id := UInt64.ofNat n.publication.number }
  /-- It goes to the observer that was registered for the slot. -/
  recipients : ∀ n ∈ s.notices, s.observers[n.slot]? = some n.observer
  seats : ∀ call slot i o, .enrolling call i o ∈ s.history → .enrolled call slot ∈ s.history →
    s.observers[slot]? = some o
  /-- Two registrations never share a slot, whether or not the observer is the same. -/
  apart : ∀ call call' slot slot', .enrolled call slot ∈ s.history →
    .enrolled call' slot' ∈ s.history → (call = call' ↔ slot = slot')
  /-- A notification is either due, and begins when its turn comes, or has begun once and goes
  through the acts of its observer's reaction to its copy. -/
  run : ∀ i t n, s.tasks[i]? = some t → t.notice? = some n →
    t.control = .waiting ∧ s.starts i = 0 ∧ (s.step i).starts i = 1 ∨
      t.control ≠ .waiting ∧ s.starts i = 1 ∧
        t.todo <:+ (n.observer.react n.publication.event).acts
  /-- It is over at most once, and then no act is left out. -/
  ended : ∀ i t, s.tasks[i]? = some t → s.ends i ≤ 1 ∧ (t.control = .finished ↔ s.ends i = 1) ∧
    (t.control = .finished → t.todo = [])

theorem Coherent.fanned_out (h : s.Coherent) (hseat : s.Seated) : s.FannedOut where
  slots := by
    intro call
    obtain ⟨m, hle, hm⟩ := h.lawful.slotsSent_eq_range call
    rw [← h.slots] at hle
    exact ⟨m, hle, (h.slots_noticesOf call).trans hm⟩
  once := by
    intro call slot
    by_cases hslot : slot ∈ slotsSent call s.history
    · exact Nat.le_of_eq (h.length_noticesAt_eq_one hslot)
    · rw [h.noticesAt_eq_nil hslot]
      exact Nat.zero_le _
  reached := by
    intro p call slot i e hp hreg
    exact h.length_noticesAt_eq_one (h.lawful.mem_slotsSent hp hreg)
  spared := by
    intro p call slot i o hreg hslot
    exact h.noticesAt_eq_nil (h.lawful.not_mem_slotsSent hreg hslot)
  copies := by
    intro n hn
    have hmem : (n.publication, n.slot) ∈ s.history.filterMap Entry.notice? := by
      rw [← h.notices]
      exact List.mem_map_of_mem hn
    obtain ⟨x, hx, hnotice⟩ := List.mem_filterMap.mp hmem
    cases x with
    | sent p slot task =>
        obtain ⟨rfl, -⟩ := Prod.mk.inj (Option.some.inj hnotice)
        have hp : n.publication ∈ s.publications :=
          mem_publications.mpr (h.lawful.numbered_of_sent hx)
        exact ⟨hp, h.event_given hp⟩
    | _ => cases hnotice
  recipients := fun _ => hseat.observer_of_notice
  seats := hseat.enrolled
  apart := by
    intro call call' slot slot' hc hc'
    exact h.lawful.enrolled_iff hc hc'
  run := by
    intro i t n ht hn
    by_cases hc : t.control = .waiting
    · exact .inl ⟨hc, h.starts_waiting ht hc, h.starts_step ht hn hc⟩
    · have hacts := (hseat.tasks t (Array.mem_of_getElem? ht)).acts n hn hc
      exact .inr ⟨hc, h.starts_begun ht hn hc, hacts.1⟩
  ended := by
    intro i t ht
    have hover := (hseat.tasks t (Array.mem_of_getElem? ht)).finished
    exact ⟨h.ends_le_one i, h.finished_iff ht, fun hc => (hover hc).1⟩

/-- **Exactly-once fan-out.** However registrations, publishes and notifications are interleaved,
every publish notifies the observers as it should, and a notification that has been created is never
lost: it is there in every later state, for the same observer and with the same copy. -/
theorem fan_out_exactly_once (config : Config) (home : Place) (past future : List Move) :
    ((new config home).play past).FannedOut ∧
      ∀ (i : Nat) (t : Task) (n : Notice), ((new config home).play past).tasks[i]? = some t →
        t.notice? = some n →
        ∃ u : Task, ((new config home).play (past ++ future)).tasks[i]? = some u ∧
          u.notice? = some n := by
  refine ⟨(coherent_play config home past).fanned_out (seated_play config home past), ?_⟩
  intro i t n ht hn
  obtain ⟨u, hu, hrole⟩ := role_kept_play future ht
  refine ⟨u, ?_, ?_⟩
  · rwa [play_append]
  · rw [Task.notice?, hrole]
    exact hn

end State

end FlowEvents.Bus
