import FlowEvents.Log
import FlowEvents.Proofs.Event.Equality
import FlowEvents.Proofs.Identity.Lifecycle

/-! # The executor is no part of anything

Where a run is executed may change at any time, and nothing but the run itself is to show it.  Two
runs of one identity that are offered the same ids stay of one identity, wherever each of them is
moved in the meantime.  Two events that differ in nothing but the executor are *twins*: whatever can
be asked of an event has the same answer for both.

Twins need not be equal, because an event that holds a non-number is not even equal to itself.
-/

namespace FlowEvents

open Decimal (Binary64)

/-! ## Runs of one identity -/

namespace Run

variable {r r' : Run} {changes changes' : List Change}

theorem adopted_congr (h : r.identity = r'.identity) : r.adopted = r'.adopted := by
  obtain ⟨-, horigin⟩ := Prod.mk.inj h
  rw [adopted, adopted, horigin]

/-- An offer is answered by the identity alone. -/
theorem answer_congr (h : r.identity = r'.identity) (offer : HostId) :
    (r.apply (.adopt offer)).2 = (r'.apply (.adopt offer)).2 := by
  obtain ⟨-, horigin⟩ := Prod.mk.inj h
  have hadopted := adopted_congr h
  rw [apply, apply]
  by_cases hr : r.adopted = true
  · rw [adopt_of_adopted hr, adopt_of_adopted (hadopted.symm.trans hr), horigin]
  · rw [Bool.not_eq_true] at hr
    have hr' := hadopted.symm.trans hr
    by_cases ho : offer.isAssigned = true
    · rw [adopt_of_assigned hr ho, adopt_of_assigned hr' ho]
    · rw [Bool.not_eq_true] at ho
      rw [adopt_of_unassigned hr ho, adopt_of_unassigned hr' ho]

/-- What becomes of the identity depends on the offers and not on the moves. -/
theorem identity_applyAll_congr (h : r.identity = r'.identity)
    (hoffers : offers changes = offers changes') :
    (r.applyAll changes).identity = (r'.applyAll changes').identity := by
  have haccepted : r.accepted changes = r'.accepted changes' := by
    rw [accepted_eq, accepted_eq, adopted_congr h, hoffers]
  obtain ⟨hflow, horigin⟩ := Prod.mk.inj h
  rw [identity, identity, flow_applyAll, flow_applyAll, origin_applyAll, origin_applyAll,
    haccepted, hflow, horigin]

theorem offers_append (past rest : List Change) :
    offers (past ++ rest) = offers past ++ offers rest :=
  List.filterMap_append

/-- Nothing that can be asked tells the runs apart. -/
structure Indistinct (r r' : Run) : Prop where
  equal : (r == r') = true
  hash : ∀ {σ : Type} (h : Hasher σ), r.hashWith h = r'.hashWith h
  adopted : r.adopted = r'.adopted
  text : r.text = r'.text

theorem indistinct (h : r.identity = r'.identity) : r.Indistinct r' where
  equal := beq_iff.mpr h
  hash hasher := hashWith_congr hasher (beq_iff.mpr h)
  adopted := adopted_congr h
  text := text_congr h

/-- Nothing is to be seen of where two runs have been, after they were offered the same. -/
structure SameCourse (r r' : Run) (changes changes' : List Change) : Prop where
  /-- An offer is answered the same if as many offers came before it. -/
  answers : ∀ past offer rest past' offer' rest', changes = past ++ .adopt offer :: rest →
    changes' = past' ++ .adopt offer' :: rest' → (offers past).length = (offers past').length →
      ((r.applyAll past).apply (.adopt offer)).2 = ((r'.applyAll past').apply (.adopt offer')).2
  /-- After as many offers the runs are indistinct, whatever the moves. -/
  between : ∀ past rest past' rest', changes = past ++ rest → changes' = past' ++ rest' →
    (offers past).length = (offers past').length →
      (r.applyAll past).Indistinct (r'.applyAll past')

theorem sameCourse (h : r.identity = r'.identity) (hoffers : offers changes = offers changes') :
    r.SameCourse r' changes changes' where
  answers := by
    rintro past offer rest past' offer' rest' rfl rfl hlength
    rw [offers_append, offers_append] at hoffers
    obtain ⟨hpast, hrest⟩ := List.append_inj hoffers hlength
    obtain ⟨rfl, -⟩ := List.cons.inj hrest
    exact answer_congr (identity_applyAll_congr h hpast) offer
  between := by
    rintro past rest past' rest' rfl rfl hlength
    rw [offers_append, offers_append] at hoffers
    exact indistinct (identity_applyAll_congr h (List.append_inj hoffers hlength).1)

end Run

/-! ## Events that differ in the executor -/

namespace Event

/-- The event again, except that its run may be executed elsewhere. -/
def Twin (e e' : Event) : Prop :=
  ∃ executor, e' = { e with run := e.run.migrate executor }

variable {e e' : Event}

/-- Twins have runs of one identity and are the same in everything else. -/
theorem Twin.identity_eq (h : e.Twin e') : e.run.identity = e'.run.identity := by
  obtain ⟨executor, rfl⟩ := h
  exact (Run.identity_migrate _ _).symm

theorem Twin.text_eq (h : e.Twin e') : e.run.text = e'.run.text :=
  Run.text_congr h.identity_eq

theorem Twin.adopted_eq (h : e.Twin e') : e.adopted = e'.adopted :=
  Run.adopted_congr h.identity_eq

theorem Twin.tag_eq (h : e.Twin e') : e.tag = e'.tag := by
  obtain ⟨executor, rfl⟩ := h
  rfl

/-- The bus gives twins numbers without a look at the executor. -/
theorem Twin.withId (h : e.Twin e') (id : UInt64) : Twin { e with id } { e' with id } := by
  obtain ⟨executor, rfl⟩ := h
  exact ⟨executor, rfl⟩

/-- Twins are equal unless there is a non-number in their payload. -/
theorem Twin.beq_iff (h : e.Twin e') :
    (e == e') = true ↔ ∀ x ∈ Tree.entriesFloats e.payload.entries, x.isNaN = false := by
  obtain ⟨executor, rfl⟩ := h
  rw [← Tree.entriesSame_self_iff, Event.beq_iff]
  exact ⟨fun ⟨_, _, _, _, _, _, hpayload⟩ => hpayload,
    fun hpayload => ⟨rfl, rfl, rfl, rfl, rfl, rfl, hpayload⟩⟩

/-- The line of a publish says nothing of the executor. -/
theorem Twin.publishLine_eq (h : e.Twin e') : e.publishLine = e'.publishLine := by
  have htext := h.text_eq
  have hadopted := h.adopted_eq
  obtain ⟨executor, rfl⟩ := h
  unfold publishLine stage
  rw [htext, hadopted]

/-- Neither does the line of a receipt. -/
theorem Twin.receiptLine_eq (h : e.Twin e') : e.receiptLine = e'.receiptLine := by
  have htext := h.text_eq
  have hadopted := h.adopted_eq
  obtain ⟨executor, rfl⟩ := h
  unfold receiptLine stage
  rw [htext, hadopted]
  rfl

end Event

end FlowEvents
