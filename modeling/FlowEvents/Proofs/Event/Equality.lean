import FlowEvents.Event.Basic
import FlowEvents.Proofs.Payload.Equality

/-! # Equality of events

Events are compared field by field: the run by its identity, which its executor is no part of, and
the payload by what is found in it.  A non-number in the payload, however deep, is all that keeps
an event from being equal to itself.
-/

namespace FlowEvents

open Decimal (Binary64)

/-- Equality of things that may hold floating-point numbers. -/
structure NumericEquality (α : Type) [BEq α] (floats : α → List Binary64) : Prop where
  symm : ∀ a b : α, (a == b) = true → (b == a) = true
  trans : ∀ a b c : α, (a == b) = true → (b == c) = true → (a == c) = true
  /-- Everything is equal to itself unless there is a non-number in it. -/
  self_iff : ∀ a : α, (a == a) = true ↔ ∀ x ∈ floats a, x.isNaN = false

theorem numericEquality {α : Type} [BEq α] [PartialEquivBEq α] {floats : α → List Binary64}
    (h : ∀ a : α, (a == a) = true ↔ ∀ x ∈ floats a, x.isNaN = false) : NumericEquality α floats :=
  ⟨fun _ _ => PartialEquivBEq.symm, fun _ _ _ => PartialEquivBEq.trans, h⟩

namespace Event

variable {a b : Event}

theorem beq_iff : (a == b) = true ↔
    a.run.flow = b.run.flow ∧ a.run.origin = b.run.origin ∧ a.source = b.source ∧ a.tag = b.tag ∧
      a.good = b.good ∧ a.id = b.id ∧ (a.payload == b.payload) = true := by
  have hbeq : (a == b) = (a.run == b.run && a.source == b.source && a.tag == b.tag &&
    a.good == b.good && a.id == b.id && a.payload == b.payload) := rfl
  have hrun : (a.run == b.run) = true ↔ a.run.flow = b.run.flow ∧ a.run.origin = b.run.origin := by
    rw [Run.beq_iff, Run.identity, Run.identity, Prod.mk.injEq]
  simp only [hbeq, Bool.and_eq_true_iff, hrun, beq_iff_eq, and_assoc]

instance : PartialEquivBEq Event where
  symm h := by
    rw [beq_iff] at h ⊢
    obtain ⟨hflow, horigin, hsource, htag, hgood, hid, hpayload⟩ := h
    exact ⟨hflow.symm, horigin.symm, hsource.symm, htag.symm, hgood.symm, hid.symm,
      PartialEquivBEq.symm hpayload⟩
  trans h h' := by
    rw [beq_iff] at h h' ⊢
    obtain ⟨hflow, horigin, hsource, htag, hgood, hid, hpayload⟩ := h
    obtain ⟨hflow', horigin', hsource', htag', hgood', hid', hpayload'⟩ := h'
    exact ⟨hflow.trans hflow', horigin.trans horigin', hsource.trans hsource', htag.trans htag',
      hgood.trans hgood', hid.trans hid', PartialEquivBEq.trans hpayload hpayload'⟩

/-- An event is equal to itself if its payload is. -/
theorem beq_self_iff : (a == a) = true ↔ (a.payload == a.payload) = true := by
  simp [beq_iff]

/-- **Equality.** Equality of values, payloads and events is symmetric and transitive, and whatever
has no non-number in it is equal to itself.  Values are equal if they are alike: an integer is no
floating-point number, the two zeros are one number.  Payloads are equal if they have the same keys
and equal values under them, in whatever order they were put there, and events if all their fields
are but the executor of the run. -/
theorem equal_by_parts :
    NumericEquality Value (fun v => v.tree.floats) ∧
    NumericEquality Payload (fun p => Tree.entriesFloats p.entries) ∧
    NumericEquality Event (fun e => Tree.entriesFloats e.payload.entries) ∧
    (∀ v w : Value, (v == w) = true ↔ v.tree.Alike w.tree) ∧
    (∀ (n : Int64) (x : Binary64), (Value.int n == Value.float x) = false) ∧
    (∀ p q : Payload, (p == q) = true ↔
      (∀ k, (p.get? k).isSome = (q.get? k).isSome) ∧
        ∀ k v w, p.get? k = some v → q.get? k = some w → (v == w) = true) ∧
    (∀ p q : Payload, (p == q) = true ↔
      p.entries.length = q.entries.length ∧
        ∀ k v, p.get? k = some v → ∃ w, q.get? k = some w ∧ (v == w) = true) ∧
    (∀ pairs pairs' : List (String × Value), pairs.Perm pairs' → (pairs.map Prod.fst).Nodup →
      Payload.ofPairs pairs = Payload.ofPairs pairs') ∧
    (∀ a b : Event, (a == b) = true ↔
      a.run.flow = b.run.flow ∧ a.run.origin = b.run.origin ∧ a.source = b.source ∧
        a.tag = b.tag ∧ a.good = b.good ∧ a.id = b.id ∧ (a.payload == b.payload) = true) ∧
    (∀ (a b : Event) (executor executor' : String),
      ({ a with run := a.run.migrate executor } == { b with run := b.run.migrate executor' }) =
        (a == b)) := by
  refine ⟨numericEquality fun v => Tree.same_self_iff v.tree,
    numericEquality fun p => Tree.entriesSame_self_iff p.entries,
    numericEquality fun e => beq_self_iff.trans (Tree.entriesSame_self_iff e.payload.entries),
    fun _ _ => Value.beq_iff, fun _ _ => rfl, fun _ _ => Payload.beq_iff,
    fun _ _ => Payload.beq_iff_found, fun _ _ => Payload.ofPairs_perm, fun _ _ => beq_iff, ?_⟩
  intro a b executor executor'
  rw [Bool.eq_iff_iff, beq_iff, beq_iff]
  exact Iff.rfl

/-- Zeros of either sign, put there in either order, and a non-number in a list of maps. -/
example :
    Payload.ofPairs [("n", .float ⟨0⟩), ("done", .null)] ==
        Payload.ofPairs [("done", .null), ("n", .float ⟨0x8000000000000000⟩)] ∧
      (Payload.ofPairs [("all", .list [.map [("n", .float ⟨0x7ff8000000000000⟩)]])] ==
        Payload.ofPairs [("all", .list [.map [("n", .float ⟨0x7ff8000000000000⟩)]])]) = false := by
  decide

end Event

end FlowEvents
