import FlowEvents.Event.Edit
import Mathlib.Data.List.Induction

/-! # Writing to the payload of an event

A payload is written to entry by entry or as a whole, in any order and any number of times.  What
stands under a key in the end is what the last edit that touched the key left there; the edits
before it and those of other keys might as well not have been made.
-/

namespace FlowEvents.Event

/-- What an edit leaves under a key; `none` if it does not touch the key. -/
def Edit.leaves? (k : String) : Edit → Option (Option Value)
  | .attach key value | .insert key value => if k = key then some (some value) else none
  | .replacePayload payload => some (payload.get? k)
  | .remove key => if k = key then some none else none
  | _ => none

/-- An edit writes to the payload. -/
def Edit.IsWrite : Edit → Prop
  | .attach _ _ | .replacePayload _ | .insert _ _ | .remove _ => True
  | _ => False

/-- What the last edit that touches a key leaves there. -/
def lastLeft? (k : String) (edits : List Edit) : Option (Option Value) :=
  edits.reverse.findSome? (Edit.leaves? k)

/-! ## One edit -/

variable (e : Event)

/-- A run is put in place or refused, the payload is none of its business. -/
@[simp]
theorem payload_withRun (outcome : Except IdFault Run) :
    (e.withRun outcome).1.payload = e.payload := by
  cases outcome <;> rfl

theorem get?_apply (edit : Edit) (k : String) :
    (e.apply edit).1.payload.get? k = (edit.leaves? k).getD (e.payload.get? k) := by
  cases edit with
  | attach key value =>
      simp only [apply, Payload.get?_insert, Edit.leaves?]
      split <;> rfl
  | insert key value =>
      simp only [apply, Payload.get?_insert, Edit.leaves?]
      split <;> rfl
  | remove key =>
      simp only [apply, Payload.get?_erase, Edit.leaves?]
      split <;> rfl
  | adopt offer => simp [apply, Edit.leaves?]
  | adoptText text => simp [apply, Edit.leaves?]
  | _ => rfl

theorem apply_of_isWrite {w : Edit} (h : w.IsWrite) :
    (e.apply w).1 = { e with payload := (e.apply w).1.payload } := by
  cases w with
  | attach key value => rfl
  | replacePayload payload => rfl
  | insert key value => rfl
  | remove key => rfl
  | _ => cases h

/-! ## Any number of edits -/

theorem applyAll_append (edits edits' : List Edit) :
    e.applyAll (edits ++ edits') = (e.applyAll edits).applyAll edits' :=
  List.foldl_append

theorem applyAll_concat (edits : List Edit) (edit : Edit) :
    e.applyAll (edits ++ [edit]) = ((e.applyAll edits).apply edit).1 :=
  e.applyAll_append edits [edit]

theorem lastLeft?_concat (k : String) (edits : List Edit) (edit : Edit) :
    lastLeft? k (edits ++ [edit]) = (edit.leaves? k).or (lastLeft? k edits) := by
  unfold lastLeft?
  rw [List.reverse_append, List.reverse_singleton, List.singleton_append, List.findSome?_cons]
  cases edit.leaves? k <;> rfl

theorem get?_applyAll (edits : List Edit) (k : String) :
    (e.applyAll edits).payload.get? k = (lastLeft? k edits).getD (e.payload.get? k) := by
  induction edits using List.reverseRecOn with
  | nil => rfl
  | append_singleton edits edit ih =>
      rw [applyAll_concat, get?_apply, ih, lastLeft?_concat]
      cases edit.leaves? k <;> rfl

theorem applyAll_of_isWrite {writes : List Edit} (h : ∀ w ∈ writes, w.IsWrite) :
    e.applyAll writes = { e with payload := (e.applyAll writes).payload } := by
  induction writes using List.reverseRecOn with
  | nil => rfl
  | append_singleton writes w ih =>
      obtain ⟨hwrites, hw⟩ := List.forall_mem_append.mp h
      rw [applyAll_concat, apply_of_isWrite _ (hw w (List.mem_singleton_self w)), ih hwrites]

/-- How the payload of an event is written to. -/
structure LastWriteWins : Prop where
  /-- Under every key stands what the last edit that touches it left there. -/
  found : ∀ edits k,
    (e.applyAll edits).payload.get? k = (lastLeft? k edits).getD (e.payload.get? k)
  /-- That is what anyone is told who asks, -/
  asked : ∀ before k, ((e.applyAll before).apply (.find k)).2 =
    .found ((lastLeft? k before).getD (e.payload.get? k))
  /-- who puts something in its place, -/
  inserted : ∀ before k value, ((e.applyAll before).apply (.insert k value)).2 =
    .previous ((lastLeft? k before).getD (e.payload.get? k))
  /-- or who removes it. -/
  removed : ∀ before k, ((e.applyAll before).apply (.remove k)).2 =
    .previous ((lastLeft? k before).getD (e.payload.get? k))
  /-- Whatever is written, the rest of the event stays as it is. -/
  others : ∀ writes : List Edit, (∀ w ∈ writes, w.IsWrite) →
    e.applyAll writes = { e with payload := (e.applyAll writes).payload }

theorem lastWriteWins : e.LastWriteWins where
  found := e.get?_applyAll
  asked before k := congrArg Answer.found (e.get?_applyAll before k)
  inserted before k _ := congrArg Answer.previous (e.get?_applyAll before k)
  removed before k := congrArg Answer.previous (e.get?_applyAll before k)
  others _ := e.applyAll_of_isWrite

/-- The whole payload is replaced, with nothing under the key. -/
example : lastLeft? "n" [.attach "n" (.int 1), .replacePayload .empty, .insert "m" .null] =
    some none := by
  rfl

end FlowEvents.Event
