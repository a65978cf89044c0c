import FlowEvents.Proofs.Bus.FanOut
import FlowEvents.Proofs.Bus.Ledger
import Mathlib.Data.List.ProdSigma

/-! # What is left in the end

When every publish has returned and every notification has run, the state no longer shows how the
tasks were interleaved.  If the observers were there before the first publish, each of them has been
sent each event, and the log holds the lines that follow from the events and the observers alone.
-/

namespace FlowEvents.Bus

open Log (Line)

/-! ## Callers that only call -/

/-- The acts that are calls of the bus. -/
def Act.isCall : Act → Bool
  | .publish _ => true
  | .register _ => true
  | .write _ => false
  | .keep _ => false

/-- Whoever joins does nothing but publish and register. -/
def Move.OnlyCalls : Move → Prop
  | .join _ acts => ∀ act ∈ acts, act.isCall = true
  | .step _ => True

/-- Whoever only calls writes nothing. -/
theorem Move.OnlyCalls.lines_eq_nil {m : Move} (h : m.OnlyCalls) : m.lines = [] := by
  cases m with
  | step i => rfl
  | join place acts =>
      rw [Move.lines, linesOf, List.filterMap_eq_nil_iff]
      intro act hact
      have hcall := h act hact
      cases act with
      | publish e | register o => rfl
      | write l | keep e => cases hcall

/-- The publish that a task has a number for and is still to trace. -/
def Task.untraced? (t : Task) : Option Publication :=
  match t.control with
  | .numbered p => some p
  | _ => none

theorem Task.untraced?_eq_some {t : Task} {p : Publication} :
    t.untraced? = some p ↔ t.control = .numbered p := by
  unfold Task.untraced?
  cases t.control <;> simp

namespace State

variable {s s' : State} {i : Nat}

/-- A step takes acts away, except that a notification begins. -/
theorem Step.todo_suffix (h : Step i s s') {u : Task} (hu : u ∈ s'.tasks) :
    u.notice?.isSome = true ∨ ∃ t ∈ s.tasks, t.notice? = u.notice? ∧ u.todo <:+ t.todo := by
  have kept : ∀ {t t' : Task}, s.tasks[i]? = some t → u ∈ s.tasks.setIfInBounds i t' →
      t'.role = t.role → t'.todo <:+ t.todo →
        u.notice?.isSome = true ∨ ∃ t ∈ s.tasks, t.notice? = u.notice? ∧ u.todo <:+ t.todo := by
    intro t t' ht hmem hrole htodo
    rcases Array.mem_or_eq_of_mem_setIfInBounds hmem with hmem | rfl
    · exact .inr ⟨u, hmem, rfl, List.suffix_rfl⟩
    · exact .inr ⟨t, Array.mem_of_getElem? ht, (Task.notice?_congr hrole).symm, htodo⟩
  cases h with
  | idle => exact .inr ⟨u, hu, rfl, List.suffix_rfl⟩
  | started t notice reaction ht hc hr =>
      rcases Array.mem_or_eq_of_mem_setIfInBounds hu with hu | rfl
      · exact .inr ⟨u, hu, rfl, List.suffix_rfl⟩
      · refine .inl ?_
        rw [Task.notice?, hr]
        rfl
  | opened t ht | stayed t ht | ended t ht | traced t p ht | listed t p ht | returned t p ht
  | enrolled t call o ht | registered t call slot ht | numbered t call e p ht =>
      exact kept ht hu rfl List.suffix_rfl
  | called t e todo ht hc htodo | enrolling t o todo ht hc htodo | written t line todo ht hc htodo
  | kept t e todo ht hc htodo =>
      refine kept ht hu rfl ?_
      rw [htodo]
      exact List.suffix_cons _ _
  | sent t p o slot left ht hc =>
      rcases Array.mem_push.mp hu with hu | rfl
      · exact kept ht hu rfl List.suffix_rfl
      · exact .inl rfl

/-- Callers that bring no lines along have none left to write. -/
theorem callers_silent (config : Config) (home : Place) {moves : List Move}
    (h : ∀ m ∈ moves, m.lines = []) :
    ∀ t ∈ ((new config home).play moves).tasks, t.notice? = none → linesOf t.todo = [] := by
  induction moves using List.reverseRecOn with
  | nil =>
      intro t ht
      exact absurd ht (Array.not_mem_empty t)
  | append_singleton moves m ih =>
      have ih := ih fun m' hm' => h m' (List.mem_append_left _ hm')
      intro u hu hnone
      rw [play_concat] at hu
      cases m with
      | join place acts =>
          rcases Array.mem_push.mp hu with hu | rfl
          · exact ih u hu hnone
          · exact h (.join place acts) (by simp)
      | step i =>
          rcases (step_spec i _).todo_suffix hu with hsome | ⟨t, ht, hnotice, htodo⟩
          · rw [hnone] at hsome
            cases hsome
          · have hlines := htodo.filterMap Act.line?
            have hnil : t.todo.filterMap Act.line? = [] := ih t ht (hnotice.trans hnone)
            rw [hnil, List.suffix_nil] at hlines
            exact hlines

/-! ## Settled states -/

/-- All observers were registered before the first publish was called. -/
def RegisteredFirst (s : State) : Prop :=
  ∀ c j e call slot, ¬ Precedes s.history (.called c j e) (.enrolled call slot)

/-- Every publish that has its number has returned, and every notification has run. -/
structure Settled (s : State) : Prop where
  returned : ∀ p ∈ s.publications, .returned p ∈ s.history
  run : ∀ t ∈ s.tasks, t.notice?.isSome = true → t.control = .finished

/-- The copies sent, each with the slot. -/
def deliveries (s : State) : List (Event × Nat) :=
  s.notices.map fun n => (n.publication.event, n.slot)

/-- The copies that the observer of a slot received. -/
def received (s : State) (slot : Nat) : List Event :=
  (s.deliveries.filter fun d => d.2 = slot).map Prod.fst

theorem taken_eq_of_registeredFirst {journal : List Entry} {n m c j : Nat} {e : Event}
    (h : ∀ call slot, ¬ Precedes journal (.called c j e) (.enrolled call slot))
    (hn : journal[n]? = some (.called c j e)) (hnm : n < m) :
    taken (journal.take m) = taken journal := by
  have hnil : (journal.drop m).filterMap Entry.slot? = [] := by
    rw [List.filterMap_eq_nil_iff]
    intro x hx
    cases x with
    | enrolled call slot =>
        obtain ⟨k, hk⟩ := List.mem_iff_getElem?.mp hx
        rw [List.getElem?_drop] at hk
        exact absurd ⟨n, m + k, by omega, hn, hk⟩ (h call slot)
    | _ => rfl
  -- so the slots that are taken in all are taken in the first part
  have hsplit := congrArg (List.filterMap Entry.slot?) (List.take_append_drop m journal)
  rw [List.filterMap_append, hnil, List.append_nil] at hsplit
  exact congrArg List.length hsplit

/-- In the end every publish has notified every slot. -/
theorem Coherent.slotsSent_of_settled (h : s.Coherent) (hreg : s.RegisteredFirst)
    (hs : s.Settled) {p : Publication} (hp : p ∈ s.publications) :
    slotsSent p.call s.history = List.range s.observers.length := by
  have hret := hs.returned p hp
  obtain ⟨k, hk⟩ := List.mem_iff_getElem?.mp hret
  obtain ⟨m, -, hm⟩ := h.lawful.listed_before_returned hk
  obtain ⟨e, hcall, -⟩ := h.event_given hp
  obtain ⟨n, hn⟩ := List.mem_iff_getElem?.mp hcall
  have hnm : n < m := by
    have hle := h.lawful.opening_first hn rfl hm rfl
    have hne : n ≠ m := by
      rintro rfl
      rw [hm] at hn
      cases hn
    omega
  rw [h.lawful.slotsSent_of_listed hret (List.mem_of_getElem? hm),
    taken_eq_of_registeredFirst (hreg p.call p.publisher e) hn hnm, h.slots]

/-- **All to all.** In the end the notifications are one for each publish and each slot. -/
theorem Coherent.notices_perm (h : s.Coherent) (hreg : s.RegisteredFirst) (hs : s.Settled) :
    (s.notices.map fun n => (n.publication, n.slot)).Perm
      (s.publications ×ˢ List.range s.observers.length) := by
  have hpubs : s.publications.Nodup := List.Nodup.of_map _ h.lawful.calls_nodup
  rw [h.notices, List.perm_ext_iff_of_nodup h.lawful.notices_nodup
    (hpubs.product List.nodup_range)]
  rintro ⟨p, slot⟩
  have hmem : (p, slot) ∈ s.history.filterMap Entry.notice? ↔
      p ∈ s.publications ∧ slot ∈ slotsSent p.call s.history := by
    constructor
    · intro hin
      obtain ⟨x, hx, hnotice⟩ := List.mem_filterMap.mp hin
      refine ⟨?_, List.mem_filterMap.mpr ⟨(p, slot), hin, by simp⟩⟩
      cases x with
      | sent q k task =>
          obtain ⟨rfl, rfl⟩ := Prod.mk.inj (Option.some.inj hnotice)
          exact mem_publications.mpr (h.lawful.numbered_of_sent hx)
      | _ => cases hnotice
    · rintro ⟨hp, hslot⟩
      obtain ⟨⟨q, k⟩, hin, hq⟩ := List.mem_filterMap.mp hslot
      obtain ⟨x, hx, hnotice⟩ := List.mem_filterMap.mp hin
      cases x with
      | sent q' k' task =>
          obtain ⟨rfl, rfl⟩ := Prod.mk.inj (Option.some.inj hnotice)
          by_cases hcall : q'.call = p.call
          · have hq' : q' ∈ s.publications :=
              mem_publications.mpr (h.lawful.numbered_of_sent hx)
            -- a call has one publish
            obtain rfl : q' = p :=
              List.inj_on_of_nodup_map h.lawful.calls_nodup hq' hp hcall
            rw [if_pos rfl] at hq
            obtain rfl := Option.some.inj hq
            exact hin
          · rw [if_neg hcall] at hq
            cases hq
      | _ => cases hnotice
  rw [hmem, List.mem_product]
  exact and_congr_right fun hp => by rw [h.slotsSent_of_settled hreg hs hp]

theorem map_product {α β γ : Type} (f : α → γ) (xs : List α) (ys : List β) :
    (xs ×ˢ ys).map (Prod.map f id) = xs.map f ×ˢ ys := by
  induction xs with
  | nil => rfl
  | cons x xs ih =>
      rw [List.product_cons, List.map_append, ih, List.map_cons, List.product_cons, List.map_map]
      rfl

theorem Coherent.deliveries_perm (h : s.Coherent) (hreg : s.RegisteredFirst) (hs : s.Settled) :
    s.deliveries.Perm
      (s.publications.map (·.event) ×ˢ List.range s.observers.length) := by
  have hperm := (h.notices_perm hreg hs).map (Prod.map Publication.event id)
  rwa [map_product, List.map_map] at hperm

/-! ## The log in the end -/

/-- What the observer of a slot leaves in the log on account of a copy. -/
def slotLines (observers : List Observer) (d : Event × Nat) : List Line :=
  match observers[d.2]? with
  | some o => o.lines d.1
  | none => []

theorem Seated.flatMap_lines (h : s.Seated) :
    s.notices.flatMap Notice.lines = s.deliveries.flatMap (slotLines s.observers) := by
  rw [deliveries, List.flatMap_map]
  apply List.flatMap_congr
  intro n hn
  rw [slotLines, h.observer_of_notice hn]
  rfl

/-- The publishes that have their number and are still to be traced. -/
def untraced (s : State) : List Publication :=
  s.tasks.toList.filterMap Task.untraced?

theorem mem_untraced {p : Publication} :
    p ∈ s.untraced ↔ ∃ t ∈ s.tasks, t.control = .numbered p := by
  constructor
  · intro hp
    obtain ⟨t, ht, htask⟩ := List.mem_filterMap.mp hp
    exact ⟨t, Array.mem_toList_iff.mp ht, Task.untraced?_eq_some.mp htask⟩
  · rintro ⟨t, ht, hc⟩
    exact List.mem_filterMap.mpr ⟨t, Array.mem_toList_iff.mpr ht, Task.untraced?_eq_some.mpr hc⟩

/-- A publish that is still to be traced has drawn its number, and has not returned. -/
theorem Coherent.of_untraced (h : s.Coherent) {p : Publication} (hp : p ∈ s.untraced) :
    p ∈ s.publications ∧ .returned p ∉ s.history := by
  obtain ⟨t, ht, hc⟩ := mem_untraced.mp hp
  obtain ⟨i, hi⟩ := Array.mem_iff_getElem?.mp ht
  have htold := (h.tasks i t hi).told
  rw [hc] at htold
  obtain ⟨-, e, hst⟩ := htold
  constructor
  · have hnumbered : Entry.numbered p ∈ story p.call s.history := by
      rw [hst]
      simp
    exact mem_publications.mpr (mem_story.mp hnumbered).1
  · intro hret
    have hmem : Entry.returned p ∈ story p.call s.history := mem_story.mpr ⟨hret, rfl⟩
    rw [hst] at hmem
    simp at hmem

theorem Coherent.untraced_eq_nil (h : s.Coherent)
    (hret : ∀ p ∈ s.publications, .returned p ∈ s.history) : s.untraced = [] := by
  rw [List.eq_nil_iff_forall_not_mem]
  intro p hp
  obtain ⟨hpub, hnot⟩ := h.of_untraced hp
  exact hnot (hret p hpub)

/-- Once every notification has run, what is owed are the traces. -/
theorem owing_eq (hrun : ∀ t ∈ s.tasks, t.notice?.isSome = true → t.control = .finished)
    (hsilent : ∀ t ∈ s.tasks, t.notice? = none → linesOf t.todo = []) (l : Line) :
    s.owing l = (s.untraced.flatMap fun p => traceLines s.config p.event).count l := by
  have howed : ∀ t ∈ s.tasks.toList, t.owed s.config =
      t.untraced?.toList.flatMap fun p => traceLines s.config p.event := by
    intro t ht
    rw [Array.mem_toList_iff] at ht
    cases hr : t.role with
    | delivery n =>
        have hc := hrun t ht (by rw [Task.notice?, hr]; rfl)
        rw [Task.owed, Task.untraced?, hc]
        rfl
    | caller =>
        have hlines : linesOf t.todo = [] := hsilent t ht (by rw [Task.notice?, hr])
        have hlast : lastLine? t = none := by rw [lastLine?, hr]
        cases hc : t.control with
        | numbered p => simp [Task.owed, Task.untraced?, hc, hlines, hlast]
        | _ => simp [Task.owed, Task.untraced?, hc, hr, hlines, hlast]
  rw [owing, untraced]
  generalize s.tasks.toList = ts at howed ⊢
  induction ts with
  | nil => rfl
  | cons t ts ih =>
      rw [List.map_cons, List.sum_cons, howed t List.mem_cons_self,
        ih fun u hu => howed u (List.mem_cons_of_mem _ hu), ← List.count_append,
        List.filterMap_cons]
      cases t.untraced? <;> simp

/-- Once every notification has run, the traces still to come are what the log lacks. -/
theorem lines_untraced_perm (config : Config) (home : Place) {moves : List Move}
    (hcallers : ∀ m ∈ moves, m.lines = [])
    (hrun : ∀ t ∈ ((new config home).play moves).tasks, t.notice?.isSome = true →
      t.control = .finished) :
    (((new config home).play moves).lines ++ ((new config home).play moves).untraced.flatMap
        fun p => traceLines ((new config home).play moves).config p.event).Perm
      (((new config home).play moves).traces ++
        ((new config home).play moves).notices.flatMap Notice.lines) := by
  rw [List.perm_iff_count]
  intro l
  have hbal := balanced_play config home moves l
  rw [owing_eq hrun (callers_silent config home hcallers),
    List.flatMap_eq_nil_iff.mpr hcallers] at hbal
  rw [List.count_append, List.count_append]
  simpa using hbal

/-- In the end the log holds the traces and what the observers wrote. -/
theorem lines_perm (config : Config) (home : Place) {moves : List Move}
    (hcalls : ∀ m ∈ moves, m.OnlyCalls) (hs : ((new config home).play moves).Settled) :
    ((new config home).play moves).lines.Perm
      (((new config home).play moves).traces ++ ((new config home).play moves).deliveries.flatMap
        (slotLines ((new config home).play moves).observers)) := by
  have hsilent : ∀ m ∈ moves, m.lines = [] := fun m hm => (hcalls m hm).lines_eq_nil
  have hperm := lines_untraced_perm config home hsilent hs.run
  rwa [(coherent_play config home moves).untraced_eq_nil hs.returned, List.flatMap_nil,
    List.append_nil, (seated_play config home moves).flatMap_lines] at hperm

theorem Step.config_eq (h : Step i s s') : s'.config = s.config := by
  cases h <;> rfl

theorem config_play (moves : List Move) (s : State) : (s.play moves).config = s.config := by
  induction moves generalizing s with
  | nil => rfl
  | cons m moves ih =>
      refine (ih (s.move m)).trans ?_
      cases m with
      | join place acts => rfl
      | step i => exact (step_spec i s).config_eq

/-! ## What can be seen in the end -/

/-- The observers received the same copies, the same number was drawn last, and the logs have
the same lines, each as often. -/
structure SameOutcome (s s' : State) : Prop where
  received : ∀ slot, (s.received slot).Perm (s'.received slot)
  lastNumber : s.lastNumber = s'.lastNumber
  lines : s.lines.Perm s'.lines

theorem received_perm (h : s.deliveries.Perm s'.deliveries) (slot : Nat) :
    (s.received slot).Perm (s'.received slot) :=
  (h.filter _).map _

/-- The outcome depends on the observers and on the events in the order of their ids, and on
nothing else. -/
theorem same_outcome (config : Config) (home home' : Place) {moves moves' : List Move}
    (hcalls : ∀ m ∈ moves, m.OnlyCalls) (hcalls' : ∀ m ∈ moves', m.OnlyCalls)
    (hreg : ((new config home).play moves).RegisteredFirst)
    (hreg' : ((new config home').play moves').RegisteredFirst)
    (hs : ((new config home).play moves).Settled)
    (hs' : ((new config home').play moves').Settled)
    (hobs : ((new config home).play moves).observers = ((new config home').play moves').observers)
    (hevents : ((new config home).play moves).publications.map (·.event) =
      ((new config home').play moves').publications.map (·.event)) :
    SameOutcome ((new config home).play moves) ((new config home').play moves') := by
  have hco := coherent_play config home moves
  have hco' := coherent_play config home' moves'
  have hdel := hco.deliveries_perm hreg hs
  have hdel' := hco'.deliveries_perm hreg' hs'
  rw [hobs, hevents] at hdel
  have hperm := hdel.trans hdel'.symm
  constructor
  · exact received_perm hperm
  · have hlen := congrArg List.length hevents
    rw [List.length_map, List.length_map, hco.length_publications, hco'.length_publications] at hlen
    rw [lastNumber, lastNumber, hlen]
  · have htraces : ((new config home).play moves).traces =
        ((new config home').play moves').traces := by
      have hflat := congrArg (List.flatMap (traceLines config)) hevents
      rw [List.flatMap_map, List.flatMap_map] at hflat
      rw [traces, traces, config_play, config_play]
      exact hflat
    refine (lines_perm config home hcalls hs).trans (List.Perm.trans ?_
      (lines_perm config home' hcalls' hs').symm)
    rw [htraces, hobs]
    exact (hperm.flatMap_right _).append_left _

end State

end FlowEvents.Bus
