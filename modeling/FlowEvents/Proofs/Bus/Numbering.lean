import FlowEvents.Proofs.Bus.Coherence
import FlowEvents.Proofs.Bus.Unnumbered

/-! # The numbers of publishes

A publish draws the next number in one atomic step.  The arguments of `Chronology` speak of natural
numbers; an id has 64 bits, and is the number as long as no more than that have been drawn.

The clones of a bus are handles of one state and have none of their own, so whoever reads the last
number reads it off the `State`.
-/

namespace FlowEvents.Bus

namespace State

/-- What the numbers drawn so far are like. -/
structure DenselyNumbered (s : State) : Prop where
  /-- The `n`-th publish that drew a number has the id `n`. -/
  ids : s.publications.map (·.event.id.toNat) = List.range' 1 s.issued
  /-- Each of these ids belongs to exactly one publish. -/
  unique : ∀ n, 1 ≤ n → n ≤ s.issued → ∃! p, p ∈ s.publications ∧ p.event.id.toNat = n
  /-- A call draws at most one number, for the event that it was given. -/
  calls : (s.publications.map (·.call)).Nodup
  given : ∀ p ∈ s.publications, ∃ e, .called p.call p.publisher e ∈ s.history ∧
    p.event = { e with id := p.event.id }
  /-- A publish that has returned has drawn one. -/
  returned : ∀ p, .returned p ∈ s.history → p ∈ s.publications
  /-- The bus tells how many have been drawn. -/
  last : s.lastNumber.toNat = s.publications.length
  /-- The numbers follow real time. -/
  order : ∀ p q i e, q ∈ s.publications →
    Precedes s.history (.returned p) (.called q.call i e) → p.event.id < q.event.id

theorem mem_publications {s : State} {p : Publication} :
    p ∈ s.publications ↔ .numbered p ∈ s.history := by
  constructor
  · intro h
    obtain ⟨x, hx, hp⟩ := List.mem_filterMap.mp h
    rwa [Entry.eq_numbered hp] at hx
  · intro h
    exact List.mem_filterMap.mpr ⟨.numbered p, h, rfl⟩

theorem publications_prefix_play (moves : List Move) (s : State) :
    s.publications <+: (s.play moves).publications :=
  (history_prefix_play moves s).filterMap _

variable {s : State}

theorem Coherent.length_publications (h : s.Coherent) : s.publications.length = s.issued := by
  rw [h.issued]
  rfl

theorem Coherent.number_le (h : s.Coherent) {p : Publication} (hp : p ∈ s.publications) :
    p.number ≤ s.issued := by
  have hmem : p.number ∈ s.publications.map (·.number) := List.mem_map_of_mem hp
  have hnumbers : s.publications.map (·.number) = List.range' 1 (drawn s.history) :=
    h.lawful.numbers
  rw [hnumbers, List.mem_range'_1, ← h.issued] at hmem
  omega

theorem Coherent.event_given (h : s.Coherent) {p : Publication} (hp : p ∈ s.publications) :
    ∃ e, .called p.call p.publisher e ∈ s.history ∧
      p.event = { e with id := UInt64.ofNat p.number } := by
  obtain ⟨n, hn⟩ := List.mem_iff_getElem?.mp (mem_publications.mp hp)
  obtain ⟨e, he, m, -, hm⟩ := h.lawful.called_before_numbered hn
  exact ⟨e, List.mem_of_getElem? hm, he⟩

/-- An id is the number, if there are bits enough. -/
theorem Coherent.id_toNat (h : s.Coherent) (few : s.issued < 2 ^ 64) {p : Publication}
    (hp : p ∈ s.publications) : p.event.id.toNat = p.number := by
  obtain ⟨e, -, he⟩ := h.event_given hp
  have hle := h.number_le hp
  rw [he]
  exact UInt64.toNat_ofNat_of_lt' (Nat.lt_of_le_of_lt hle few)

theorem Coherent.ids (h : s.Coherent) (few : s.issued < 2 ^ 64) :
    s.publications.map (·.event.id.toNat) = List.range' 1 s.issued := by
  have hids : s.publications.map (·.event.id.toNat) = s.publications.map (·.number) :=
    List.map_congr_left fun p hp => h.id_toNat few hp
  rw [hids, h.issued]
  exact h.lawful.numbers

theorem Coherent.densely_numbered (h : s.Coherent) (few : s.issued < 2 ^ 64) :
    s.DenselyNumbered where
  ids := h.ids few
  unique := by
    intro n hlo hhi
    have hmem : n ∈ s.publications.map (·.event.id.toNat) := by
      rw [h.ids few, List.mem_range'_1]
      omega
    obtain ⟨p, hp, rfl⟩ := List.mem_map.mp hmem
    refine ⟨p, ⟨hp, rfl⟩, ?_⟩
    rintro q ⟨hq, hid⟩
    have hnodup : (s.publications.map (·.event.id.toNat)).Nodup := by
      rw [h.ids few]
      exact List.nodup_range'
    exact List.inj_on_of_nodup_map hnodup hq hp hid
  calls := h.lawful.calls_nodup
  given := by
    intro p hp
    obtain ⟨e, hcall, he⟩ := h.event_given hp
    refine ⟨e, hcall, ?_⟩
    rw [he]
  returned := by
    intro p hp
    obtain ⟨n, hn⟩ := List.mem_iff_getElem?.mp hp
    obtain ⟨m, -, hm⟩ := h.lawful.numbered_before_returned hn
    exact mem_publications.mpr (List.mem_of_getElem? hm)
  last := by
    rw [h.length_publications, lastNumber]
    exact UInt64.toNat_ofNat_of_lt' few
  order := by
    intro p q i e hq hpq
    have hp : p ∈ s.publications := by
      obtain ⟨k, l, -, hret, -⟩ := hpq
      obtain ⟨m, -, hm⟩ := h.lawful.numbered_before_returned hret
      exact mem_publications.mpr (List.mem_of_getElem? hm)
    rw [UInt64.lt_iff_toNat_lt, h.id_toNat few hp, h.id_toNat few hq]
    exact h.lawful.number_lt hpq (mem_publications.mp hq)

theorem Coherent.lastNumber_le (h : s.Coherent) (moves : List Move)
    (h' : (s.play moves).Coherent) (few : (s.play moves).issued < 2 ^ 64) :
    s.lastNumber ≤ (s.play moves).lastNumber := by
  have hle : s.issued ≤ (s.play moves).issued := by
    rw [← h.length_publications, ← h'.length_publications]
    exact (publications_prefix_play moves s).length_le
  rw [UInt64.le_iff_toNat_le, lastNumber, lastNumber,
    UInt64.toNat_ofNat_of_lt' (Nat.lt_of_le_of_lt hle few), UInt64.toNat_ofNat_of_lt' few]
  exact hle

/-- **Dense numbering.** At every moment of an execution in which fewer than `2 ^ 64` numbers are
drawn the numbers are dense, and the last one never decreases.  An execution that differs in nothing
but the ids that the producers set draws the same numbers at the same moments. -/
theorem numbers_dense (config : Config) (home : Place) (past future : List Move)
    (few : ((new config home).play (past ++ future)).issued < 2 ^ 64) :
    ((new config home).play past).DenselyNumbered ∧
      ((new config home).play past).lastNumber ≤
        ((new config home).play (past ++ future)).lastNumber ∧
      ∀ past' : List Move, past'.map Move.unnumbered = past.map Move.unnumbered →
        ((new config home).play past').publications = ((new config home).play past).publications ∧
        ((new config home).play past').lastNumber = ((new config home).play past).lastNumber ∧
        ((new config home).play past').history.map Entry.unnumbered =
          ((new config home).play past).history.map Entry.unnumbered := by
  have h := coherent_play config home past
  have h' := coherent_play config home (past ++ future)
  rw [play_append] at few h' ⊢
  -- what is numbered stays numbered, so few numbers in the end are few at any time before
  have hle := (publications_prefix_play future ((new config home).play past)).length_le
  rw [h.length_publications, h'.length_publications] at hle
  refine ⟨h.densely_numbered (Nat.lt_of_le_of_lt hle few), h.lastNumber_le future h' few, ?_⟩
  intro past' hpast
  have heq := unnumbered_play_congr config home hpast
  refine ⟨?_, ?_, ?_⟩
  · rw [← publications_unnumbered, heq, publications_unnumbered]
  · rw [← lastNumber_unnumbered, heq, lastNumber_unnumbered]
  · rw [← history_unnumbered, heq, history_unnumbered]

/-- Two callers whose events have the id `7`: the one that calls last draws first. -/
def twoCallers : List Move :=
  let acts := [Act.publish { Event.unpublished default ⟨.task, "probe"⟩ "probe.done" with id := 7 }]
  [.join .thread acts, .join .thread acts, .step 0, .step 1, .step 1, .step 0]

theorem numbers_dense_twoCallers :
    ((new default .thread).play twoCallers).issued < 2 ^ 64 ∧
      ((new default .thread).play twoCallers).publications.map (·.publisher) = [1, 0] ∧
      ((new default .thread).play twoCallers).publications.map (·.event.id.toNat) = [1, 2] :=
  ⟨by decide, rfl, (numbers_dense default .thread twoCallers [] (by decide)).1.ids⟩

end State

end FlowEvents.Bus
