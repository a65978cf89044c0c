import FlowEvents.Proofs.Bus.FanOut
import Mathlib.Logic.Relation

/-! # Where notifications run

A notification may publish in its turn, and so where one runs goes back to where another does.
However long the chain, it begins with a publish from outside, and its first notifications decide
for all: in the publisher's runtime, or else where the bus was made.  From a runtime nothing is sent
elsewhere, and a thread of its own is given to a notification only if the bus was made outside of
every runtime; so what is sent from the place of a notification runs there as well
(`Place.forNotice_forNotice`).
-/

namespace FlowEvents.Bus

/-- What is sent from where a notification runs, runs there as well. -/
theorem Place.forNotice_forNotice (publisher home : Place) :
    (publisher.forNotice home).forNotice home = publisher.forNotice home := by
  cases publisher with
  | runtime name => rfl
  | thread => cases home <;> rfl

namespace State

variable {s s' : State} {i j : Nat} {t : Task} {p q : Publication} {place home : Place}

/-! ## Publishers and what they send -/

/-- Publishes are made by tasks that are there.  A notification is sent by its publisher, an earlier
task, and it runs where that one sends it. -/
structure Sited (s : State) : Prop where
  publishers : ∀ p ∈ s.publications, p.publisher < s.tasks.size
  notices : ∀ (j : Nat) (t : Task) (n : Notice), s.tasks[j]? = some t → t.notice? = some n →
    n.publication.publisher < j ∧ ∃ u : Task, s.tasks[n.publication.publisher]? = some u ∧
      t.place = u.place.forNotice s.home

theorem Step.home_eq (h : Step i s s') : s'.home = s.home := by
  cases h <;> rfl

theorem home_play (moves : List Move) (s : State) : (s.play moves).home = s.home :=
  play_induction (motive := fun s' => s'.home = s.home) rfl (fun _ _ _ h => h)
    (fun s' i h => (step_spec i s').home_eq.trans h) moves

/-- A publish that a step numbers is its task's own. -/
theorem Step.mem_publications (h : Step i s s') (hp : p ∈ s'.publications) :
    p ∈ s.publications ∨ p.publisher = i ∧ i < s.tasks.size := by
  cases h with
  | numbered t call e p' ht hc hp' =>
      rw [publications_concat (history_eq_concat rfl), List.mem_append] at hp
      rcases hp with hp | hp
      · exact .inl hp
      · obtain rfl : p' = p := by simpa [Entry.publication?, eq_comm] using hp
        subst hp'
        exact .inr ⟨rfl, lt_size_of_getElem? ht⟩
  | _ => exact .inl (by simpa [publications, Entry.publication?] using hp)

theorem Step.size_le (h : Step i s s') : s.tasks.size ≤ s'.tasks.size := by
  by_contra hlt
  obtain ⟨t, ht⟩ : ∃ t, s.tasks[s'.tasks.size]? = some t :=
    ⟨_, Array.getElem?_eq_getElem (Nat.lt_of_not_le hlt)⟩
  obtain ⟨u, hu, -⟩ := h.task_kept ht
  exact absurd (lt_size_of_getElem? hu) (Nat.lt_irrefl _)

theorem Sited.of_step (h : s.Sited) (hco : s.Coherent) (hstep : Step i s s') : s'.Sited := by
  constructor
  · intro p hp
    rcases hstep.mem_publications hp with hp | ⟨rfl, hlt⟩
    · exact Nat.lt_of_lt_of_le (h.publishers p hp) hstep.size_le
    · exact Nat.lt_of_lt_of_le hlt hstep.size_le
  · intro j t n ht hn
    rw [hstep.home_eq]
    cases hold : s.tasks[j]? with
    | none =>
        obtain ⟨u, p, o, slot, left, hu, hc, rfl⟩ := hstep.created hold ht
        obtain rfl := Option.some.inj hn
        -- the sender is the publisher, and it was there before
        have htold := (hco.tasks i u hu).told
        rw [hc] at htold
        obtain rfl : p.publisher = i := htold.1
        obtain ⟨v, hv, -, hplace⟩ := hstep.task_kept hu
        refine ⟨Nat.lt_of_lt_of_le (lt_size_of_getElem? hu) (Array.getElem?_eq_none_iff.mp hold),
          v, hv, ?_⟩
        rw [hplace]
        rfl
    | some t₀ =>
        obtain ⟨t', ht', hrole, hplace⟩ := hstep.task_kept hold
        obtain rfl : t' = t := Option.some.inj (ht'.symm.trans ht)
        rw [Task.notice?_congr hrole] at hn
        obtain ⟨hlt, u, hu, hsent⟩ := h.notices j t₀ n hold hn
        obtain ⟨v, hv, -, hplace'⟩ := hstep.task_kept hu
        refine ⟨hlt, v, hv, ?_⟩
        rw [hplace, hplace', hsent]

theorem Sited.join (h : s.Sited) (place : Place) (acts : List Act) :
    (s.spawn (Task.caller place acts)).Sited where
  publishers := by
    intro p hp
    have hlt := h.publishers p hp
    simp only [spawn, Array.size_push]
    omega
  notices := by
    intro j t n ht hn
    rcases getElem?_push ht with ht | ⟨-, rfl⟩
    · obtain ⟨hlt, u, hu, hsent⟩ := h.notices j t n ht hn
      obtain ⟨v, hv, -, hplace⟩ := task_kept_play [.join place acts] hu
      refine ⟨hlt, v, hv, ?_⟩
      rw [hplace]
      exact hsent
    · cases hn

theorem sited_play (config : Config) (home : Place) (moves : List Move) :
    ((new config home).play moves).Sited := by
  induction moves using List.reverseRecOn with
  | nil =>
      constructor
      · intro p hp
        cases hp
      · intro j t n ht
        cases ht
  | append_singleton moves m ih =>
      rw [play_concat]
      cases m with
      | join place acts => exact ih.join place acts
      | step i => exact ih.of_step (coherent_play config home moves) (step_spec i _)

/-! ## Chains of publishes -/

/-- A publish is made by a caller from outside, at a place. -/
def FromOutside (s : State) (p : Publication) (place : Place) : Prop :=
  p ∈ s.publications ∧
    ∃ c : Task, s.tasks[p.publisher]? = some c ∧ c.role = .caller ∧ c.place = place

/-- The second publish is made from within a notification of the first. -/
def Prompts (s : State) (p q : Publication) : Prop :=
  q ∈ s.publications ∧ ∃ (t : Task) (n : Notice),
    s.tasks[q.publisher]? = some t ∧ t.notice? = some n ∧ n.publication = p

/-- A publish is the first of a chain of which the other is a part. -/
def Causes (s : State) : Publication → Publication → Prop :=
  Relation.ReflTransGen s.Prompts

/-- Whatever is sent in the course of a chain, is sent where the first publish sends. -/
theorem Sited.forNotice_eq (h : s.Sited) (hp : s.FromOutside p place) (hpq : s.Causes p q)
    (ht : s.tasks[q.publisher]? = some t) :
    t.place.forNotice s.home = place.forNotice s.home := by
  induction hpq generalizing t with
  | refl =>
      obtain ⟨-, c, hc, -, rfl⟩ := hp
      obtain rfl : c = t := Option.some.inj (hc.symm.trans ht)
      rfl
  | tail _ hnext ih =>
      obtain ⟨-, t', n, ht', hn, rfl⟩ := hnext
      obtain rfl : t' = t := Option.some.inj (ht'.symm.trans ht)
      obtain ⟨-, u, hu, hsent⟩ := h.notices _ t' n ht hn
      rw [hsent, Place.forNotice_forNotice, ih hu]

/-- A publish is prompted by one publish at most. -/
theorem Prompts.unique {p' : Publication} (h : s.Prompts p q) (h' : s.Prompts p' q) :
    p = p' := by
  obtain ⟨-, t, n, ht, hn, rfl⟩ := h
  obtain ⟨-, t', n', ht', hn', rfl⟩ := h'
  obtain rfl : t = t' := Option.some.inj (ht.symm.trans ht')
  rw [Option.some.inj (hn.symm.trans hn')]

/-- What comes from outside is prompted by nothing. -/
theorem FromOutside.not_prompts (h : s.FromOutside q place) : ¬ s.Prompts p q := by
  rintro ⟨-, t, n, ht, hn, -⟩
  obtain ⟨-, c, hc, hrole, -⟩ := h
  obtain rfl : c = t := Option.some.inj (hc.symm.trans ht)
  rw [Task.notice?, hrole] at hn
  cases hn

theorem Coherent.publication_mem (h : s.Coherent) {n : Notice} (ht : s.tasks[j]? = some t)
    (hn : t.notice? = some n) : n.publication ∈ s.publications :=
  mem_publications.mpr (h.lawful.numbered_of_sent ((h.tasks j t ht).sent n hn))

/-- A publisher is a caller from outside, or a notification of an earlier publish. -/
theorem Sited.exists_fromOutside (h : s.Sited) (hco : s.Coherent) (hq : q ∈ s.publications) :
    ∃ p, (∃ place, s.FromOutside p place) ∧ s.Causes p q := by
  induction hk : q.publisher using Nat.strongRecOn generalizing q with
  | ind k ih =>
      subst hk
      obtain ⟨t, ht⟩ : ∃ t, s.tasks[q.publisher]? = some t :=
        ⟨_, Array.getElem?_eq_getElem (h.publishers q hq)⟩
      cases hn : t.notice? with
      | none =>
          have hrole : t.role = .caller := by
            unfold Task.notice? at hn
            split at hn
            next hrole => exact hrole
            next => cases hn
          exact ⟨q, ⟨t.place, hq, t, ht, hrole, rfl⟩, .refl⟩
      | some n =>
          obtain ⟨hlt, -⟩ := h.notices _ t n ht hn
          obtain ⟨p, hp, hcause⟩ := ih _ hlt (hco.publication_mem ht hn) rfl
          exact ⟨p, hp, hcause.tail ⟨hq, t, n, ht, hn, rfl⟩⟩

theorem FromOutside.unique {p' : Publication} {place' : Place} (h : s.FromOutside p place)
    (hcause : s.Causes p q) (h' : s.FromOutside p' place') (hcause' : s.Causes p' q) :
    p = p' := by
  induction hcause with
  | refl =>
      rcases Relation.ReflTransGen.cases_tail hcause' with rfl | ⟨q, -, hlast⟩
      · rfl
      · exact absurd hlast h.not_prompts
  | tail _ hlast ih =>
      rcases Relation.ReflTransGen.cases_tail hcause' with rfl | ⟨q, hfront, hlast'⟩
      · exact absurd hlast h'.not_prompts
      · exact ih (hlast.unique hlast' ▸ hfront)

/-- Where the notifications of a bus run that was made at `home`. -/
structure Housed (s : State) (home : Place) : Prop where
  /-- The notifications of a chain run in the runtime of its first publisher if that one has one,
  and otherwise where the bus was made. -/
  chain : ∀ p place, s.FromOutside p place → ∀ q, s.Causes p q →
    ∀ t ∈ s.tasks, ∀ n, t.notice? = some n → n.publication = q →
      (∀ name, place = .runtime name → t.place = .runtime name) ∧
        (place = .thread → t.place = home)
  /-- Every publish is part of one chain. -/
  origin : ∀ q ∈ s.publications, ∃! p, (∃ place, s.FromOutside p place) ∧ s.Causes p q
  /-- If the bus was made in a runtime, no notification has a thread of its own. -/
  sheltered : ∀ name, home = .runtime name →
    ∀ t ∈ s.tasks, ∀ n, t.notice? = some n → t.place ≠ .thread

theorem Sited.housed (h : s.Sited) (hco : s.Coherent) : s.Housed s.home where
  chain := by
    rintro p place hp q hcause t ht n hn rfl
    obtain ⟨j, hj⟩ := Array.mem_iff_getElem?.mp ht
    obtain ⟨-, u, hu, hsent⟩ := h.notices j t n hj hn
    rw [hsent, h.forNotice_eq hp hcause hu]
    constructor
    · rintro name rfl
      rfl
    · rintro rfl
      rfl
  origin := by
    intro q hq
    obtain ⟨p, ⟨place, hp⟩, hcause⟩ := h.exists_fromOutside hco hq
    refine ⟨p, ⟨⟨place, hp⟩, hcause⟩, ?_⟩
    rintro p' ⟨⟨place', hp'⟩, hcause'⟩
    exact hp'.unique hcause' hp hcause
  sheltered := by
    intro name hhome t ht n hn
    obtain ⟨j, hj⟩ := Array.mem_iff_getElem?.mp ht
    obtain ⟨-, u, -, hsent⟩ := h.notices j t n hj hn
    rw [hsent, hhome]
    cases u.place <;> simp [Place.forNotice]

/-- **Places.** Whatever happens around a bus, all notifications that come of a publish from
outside, directly or through the publishes of observers, run in one kind of place: in the runtime of
the first publisher, or else where the bus was made.  A task never changes its place. -/
theorem notifications_housed (config : Config) (home : Place) (past future : List Move) :
    ((new config home).play past).Housed home ∧
      ∀ (i : Nat) (t : Task), ((new config home).play past).tasks[i]? = some t →
        ∃ u : Task, ((new config home).play (past ++ future)).tasks[i]? = some u ∧
          u.place = t.place := by
  constructor
  · have hhoused := (sited_play config home past).housed (coherent_play config home past)
    rwa [home_play] at hhoused
  · intro i t ht
    obtain ⟨u, hu, -, hplace⟩ := task_kept_play future ht
    refine ⟨u, ?_, hplace⟩
    rwa [play_append]

/-! ## An observer that publishes -/

def signal : Event :=
  Event.unpublished default ⟨.trigger, "signal"⟩ "signal"

/-- It publishes an event of its own when it is told of the first one. -/
def relay : Observer :=
  ⟨some "relay", fun e => ⟨if e.id = 1 then [.publish signal.markGood] else [], .returned⟩⟩

/-- Task 0 registers the observer, and task 1 publishes, both from threads; task 2 is the
notification of it, which publishes again, and task 3 the notification of that. -/
def relaying : List Move :=
  [.join .thread [.register relay], .step 0, .step 0, .step 0,
    .join .thread [.publish signal], .step 1, .step 1, .step 1, .step 1, .step 1,
    .step 2, .step 2, .step 2, .step 2, .step 2, .step 2]

def relayed : Publication :=
  ⟨1, 1, 1, { signal with id := UInt64.ofNat 1 }⟩

def relayedAgain : Publication :=
  ⟨2, 2, 2, { signal.markGood with id := UInt64.ofNat 2 }⟩

set_option maxRecDepth 8000 in
theorem relaying_tasks : ((new default (.runtime "main")).play relaying).tasks =
    #[⟨.thread, .caller, .ready, [], .returned⟩,
      ⟨.thread, .caller, .sending relayed [], [], .returned⟩,
      ⟨.runtime "main", .delivery ⟨relayed, 0, relay⟩, .sending relayedAgain [], [], .returned⟩,
      ⟨.runtime "main", .delivery ⟨relayedAgain, 0, relay⟩, .waiting, [], .returned⟩] :=
  rfl

set_option maxRecDepth 8000 in
theorem relaying_publications :
    ((new default (.runtime "main")).play relaying).publications = [relayed, relayedAgain] :=
  rfl

/-- The second notification of the chain runs in the runtime of the bus, like the first. -/
theorem relaying_housed :
    ((new default (.runtime "main")).play relaying).FromOutside relayed .thread ∧
      ((new default (.runtime "main")).play relaying).Prompts relayed relayedAgain ∧
      ∀ t ∈ ((new default (.runtime "main")).play relaying).tasks, ∀ n, t.notice? = some n →
        n.publication = relayedAgain → t.place = .runtime "main" := by
  have hfirst : ((new default (.runtime "main")).play relaying).FromOutside relayed .thread := by
    refine ⟨by simp [relaying_publications], ?_⟩
    rw [relaying_tasks]
    exact ⟨_, rfl, rfl, rfl⟩
  have hnext : ((new default (.runtime "main")).play relaying).Prompts relayed relayedAgain := by
    refine ⟨by simp [relaying_publications], ?_⟩
    rw [relaying_tasks]
    exact ⟨_, _, rfl, rfl, rfl⟩
  refine ⟨hfirst, hnext, ?_⟩
  intro t ht n hn hpub
  exact ((notifications_housed default (.runtime "main") relaying []).1.chain relayed .thread
    hfirst relayedAgain (.single hnext) t ht n hn hpub).2 rfl

end State

end FlowEvents.Bus
