import FlowEvents.Proofs.Bus.Isolation

/-! # Who wrote what

The log says of every line which task wrote it.  The ledger counts lines whoever wrote them; here
the lines of one task are looked at, in their order.  A step of a task writes just what it then no
longer owes, so a notification that does not call the bus writes what its observer promised, line by
line, and what is still missing it owes.
-/

namespace FlowEvents.Bus

open Log (Line)

/-- The reaction that a notification is about does not call the bus. -/
def Notice.Reticent (n : Notice) : Prop :=
  ∀ act ∈ (n.observer.react n.publication.event).acts, act.isCall = false

theorem Observer.reticent_logging {n : Notice} (ho : n.observer = .logging) : n.Reticent := by
  intro act hact
  rw [ho] at hact
  obtain rfl := List.mem_singleton.mp hact
  rfl

theorem Notice.lines_logging {n : Notice} (ho : n.observer = .logging) :
    n.lines = [n.publication.event.receiptLine] := by
  rw [Notice.lines, ho]
  rfl

namespace State

/-- The lines that a task wrote, in the order of writing. -/
def linesBy (s : State) (i : Nat) : List Line :=
  (s.log.toList.filter fun w => w.writer == i).map (·.line)

variable {s s' : State} {i j : Nat} {t u : Task} {lines : List Line}

/-! ## The log, task by task -/

theorem linesBy_self (hlog : s'.log.toList = s.log.toList ++ lines.map (Written.mk i)) :
    s'.linesBy i = s.linesBy i ++ lines := by
  have hown : (lines.map (Written.mk i)).filter (fun w => w.writer == i) =
      lines.map (Written.mk i) := by
    rw [List.filter_eq_self]
    intro w hw
    obtain ⟨line, -, rfl⟩ := List.mem_map.mp hw
    exact beq_self_eq_true i
  have hback : (lines.map (Written.mk i)).map (·.line) = lines := by
    rw [List.map_map]
    exact List.map_id _
  rw [linesBy, linesBy, hlog, List.filter_append, List.map_append, hown, hback]

theorem linesBy_of_ne (hji : j ≠ i)
    (hlog : s'.log.toList = s.log.toList ++ lines.map (Written.mk i)) :
    s'.linesBy j = s.linesBy j := by
  have hother : (lines.map (Written.mk i)).filter (fun w => w.writer == j) = [] := by
    rw [List.filter_eq_nil_iff]
    intro w hw
    obtain ⟨line, -, rfl⟩ := List.mem_map.mp hw
    simp [Ne.symm hji]
  rw [linesBy, linesBy, hlog, List.filter_append, hother, List.append_nil]

/-- A task that is not there has written nothing. -/
theorem Attributed.linesBy_eq_nil (h : s.Attributed) (hj : s.tasks.size ≤ j) :
    s.linesBy j = [] := by
  rw [linesBy, List.map_eq_nil_iff, List.filter_eq_nil_iff]
  intro w hw hwriter
  have hlt := h.lines w (Array.mem_toList_iff.mp hw)
  rw [beq_iff_eq] at hwriter
  omega

/-! ## One step -/

theorem Step.idle_or_present (h : Step i s s') : s' = s ∨ ∃ t, s.tasks[i]? = some t := by
  cases h with
  | idle => exact .inl rfl
  | _ => exact .inr ⟨_, ‹s.tasks[i]? = some _›⟩

/-- Whatever a step writes is its task's own. -/
theorem Step.log_eq (h : Step i s s') :
    ∃ lines : List Line, s'.log.toList = s.log.toList ++ lines.map (Written.mk i) := by
  cases h with
  | ended t =>
      refine ⟨(lastLine? t).toList, ?_⟩
      cases lastLine? t <;> simp
  | written t line => exact ⟨[line], by simp⟩
  | traced t p =>
      refine ⟨traceLines s.config p.event, ?_⟩
      unfold traceLines
      dsimp only
      split <;> simp
  | _ => exact ⟨[], by simp⟩

/-- What a task that is not about to draw a number writes in a step is what it owed before and does
not owe afterwards. -/
theorem Step.settles (h : Step i s s') (ht : s.tasks[i]? = some t)
    (hcall : ∀ call e, t.control ≠ .called call e) :
    ∃ (t' : Task) (lines : List Line), s'.tasks[i]? = some t' ∧
      s'.log.toList = s.log.toList ++ lines.map (Written.mk i) ∧
      t.owed s.config = lines ++ t'.owed s.config := by
  have silent : ∀ {s' : State} {t₀ t' : Task}, s.tasks[i]? = some t₀ → s'.log = s.log →
      s'.tasks[i]? = some t' → t₀.owed s.config = t'.owed s.config →
      ∃ (t' : Task) (lines : List Line), s'.tasks[i]? = some t' ∧
        s'.log.toList = s.log.toList ++ lines.map (Written.mk i) ∧
        t.owed s.config = lines ++ t'.owed s.config := by
    intro s' t₀ t' ht₀ hlog ht' howed
    obtain rfl : t = t₀ := Option.some.inj (ht.symm.trans ht₀)
    exact ⟨t', [], ht', by rw [hlog, List.map_nil, List.append_nil], howed⟩
  cases h with
  | idle => exact silent ht rfl ht rfl
  | opened t₀ ht₀ hc hr =>
      refine silent ht₀ rfl (getElem?_set_self ht₀ _) ?_
      simp only [Task.owed, lastLine?, hc, hr]
  | started t₀ n reaction ht₀ hc hr hreact =>
      subst hreact
      refine silent ht₀ rfl (getElem?_set_self ht₀ _) ?_
      have howed : t₀.owed s.config = n.lines := by simp only [Task.owed, hc, hr]
      rw [howed, lines_eq_owed hr]
      rfl
  | stayed t₀ ht₀ hc =>
      refine silent ht₀ rfl (getElem?_set_self ht₀ _) ?_
      rw [owed_ready hc]
      rfl
  | ended t₀ ht₀ hc htodo =>
      obtain rfl : t = t₀ := Option.some.inj (ht.symm.trans ht₀)
      refine ⟨_, (lastLine? t).toList, getElem?_set_self ht₀ _, ?_, ?_⟩
      · cases lastLine? t <;> simp
      · rw [owed_ready hc, htodo]
        exact (List.append_nil _).symm
  | called t₀ e todo ht₀ hc htodo | enrolling t₀ o todo ht₀ hc htodo
  | kept t₀ e todo ht₀ hc htodo =>
      refine silent ht₀ rfl (getElem?_set_self ht₀ _) ?_
      rw [owed_ready hc, htodo]
      simp only [Task.owed, hc]
      rfl
  | written t₀ line todo ht₀ hc htodo =>
      obtain rfl : t = t₀ := Option.some.inj (ht.symm.trans ht₀)
      refine ⟨_, [line], getElem?_set_self ht₀ _, by simp, ?_⟩
      rw [owed_ready hc, htodo]
      simp only [Task.owed, hc]
      rfl
  | numbered t₀ call e p ht₀ hc =>
      obtain rfl : t = t₀ := Option.some.inj (ht.symm.trans ht₀)
      exact absurd hc (hcall call e)
  | traced t₀ p ht₀ hc =>
      obtain rfl : t = t₀ := Option.some.inj (ht.symm.trans ht₀)
      refine ⟨_, traceLines s.config p.event, getElem?_set_self ht₀ _, ?_, ?_⟩
      · unfold traceLines
        dsimp only
        split <;> simp
      · simp only [Task.owed, hc]
        rfl
  | sent t₀ p o slot left ht₀ hc =>
      refine silent ht₀ rfl (getElem?_push_of_some (getElem?_set_self ht₀ _) _) ?_
      simp only [Task.owed, hc]
      rfl
  | listed t₀ p ht₀ hc | returned t₀ p ht₀ hc | enrolled t₀ call o ht₀ hc
  | registered t₀ call slot ht₀ hc =>
      refine silent ht₀ rfl (getElem?_set_self ht₀ _) ?_
      simp only [Task.owed, hc]
      rfl

/-! ## Any number of steps -/

/-- What a notification that does not call the bus has written and what it still owes are what its
observer promised, in that order. -/
def Signed (s : State) : Prop :=
  ∀ i t n, s.tasks[i]? = some t → t.notice? = some n → n.Reticent →
    s.linesBy i ++ t.owed s.config = n.lines

theorem Signed.of_step (h : s.Signed) (hattr : s.Attributed) (huncalled : s.Uncalled)
    (hstep : Step i s s') : s'.Signed := by
  intro j u n hu hn hret
  rw [hstep.config_eq]
  obtain ⟨lines, hlog⟩ := hstep.log_eq
  cases ht : s.tasks[j]? with
  | none =>
      -- the notification is new: nothing has been written and all is owed
      have hc : u.control = .waiting := by
        obtain ⟨_, _, _, _, _, -, -, rfl⟩ := hstep.created ht hu
        rfl
      have hr := Task.notice?_eq_some.mp hn
      have hji : j ≠ i := by
        rintro rfl
        rcases hstep.idle_or_present with rfl | ⟨t, ht'⟩
        · rw [ht] at hu
          cases hu
        · rw [ht] at ht'
          cases ht'
      rw [linesBy_of_ne hji hlog, hattr.linesBy_eq_nil (Array.getElem?_eq_none_iff.mp ht)]
      simp only [Task.owed, hc, hr, List.nil_append]
  | some t =>
      by_cases hji : j = i
      · subst hji
        have hnotice : t.notice? = some n := by
          obtain ⟨v, hv, hrole⟩ := hstep.role_kept ht
          obtain rfl : v = u := Option.some.inj (hv.symm.trans hu)
          rw [← hn, Task.notice?_congr hrole]
        have hnone := huncalled t (Array.mem_of_getElem? ht) n hnotice hret
        have hcall : ∀ call e, t.control ≠ .called call e := by
          intro call e hc
          rw [hc] at hnone
          cases hnone
        obtain ⟨u', lines, hu', hlog, howed⟩ := hstep.settles ht hcall
        obtain rfl : u' = u := Option.some.inj (hu'.symm.trans hu)
        rw [linesBy_self hlog, List.append_assoc, ← howed]
        exact h j t n ht hnotice hret
      · obtain rfl : t = u := Option.some.inj ((hstep.others_kept hji ht).symm.trans hu)
        rw [linesBy_of_ne hji hlog]
        exact h j t n ht hn hret

theorem signed_play (config : Config) (home : Place) (moves : List Move) :
    ((new config home).play moves).Signed := by
  induction moves using List.reverseRecOn with
  | nil =>
      intro i t n ht
      cases ht
  | append_singleton moves m ih =>
      rw [play_concat]
      cases m with
      | join place acts =>
          intro i t n ht hn hret
          rcases getElem?_push ht with ht | ⟨-, rfl⟩
          · exact ih i t n ht hn hret
          · cases hn
      | step i =>
          exact ih.of_step (attributed_play config home moves) (uncalled_play config home moves)
            (step_spec i _)

/-- **Signed lines.** A notification whose reaction does not call the bus writes lines that its
observer promised and no others, in their order and none twice; once it is over, it has written them
all. -/
theorem linesBy_notification (config : Config) (home : Place) (moves : List Move) {i : Nat}
    {t : Task} {n : Notice} (ht : ((new config home).play moves).tasks[i]? = some t)
    (hn : t.notice? = some n) (hret : n.Reticent) :
    ((new config home).play moves).linesBy i <+: n.lines ∧
      (t.control = .finished → ((new config home).play moves).linesBy i = n.lines) := by
  have hsigned := signed_play config home moves i t n ht hn hret
  refine ⟨⟨_, hsigned⟩, fun hc => ?_⟩
  have howed : t.owed ((new config home).play moves).config = [] := by
    simp only [Task.owed, hc]
  rw [← hsigned, howed, List.append_nil]

/-! ## Notifications of an event -/

/-- Task `i` is a notification of a publish of the event `e`. -/
structure Notifies (s : State) (e : Event) (i : Nat) (t : Task) (n : Notice) : Prop where
  task : s.tasks[i]? = some t
  notice : t.notice? = some n
  called : ∃ caller, .called n.publication.call caller e ∈ s.history

variable {e : Event} {config : Config} {home : Place} {moves : List Move} {n : Notice}

/-- The event of a publish is the one that its call was given, but for the id. -/
theorem Coherent.event_of_called (h : s.Coherent) {p : Publication} (hp : p ∈ s.publications)
    {caller : Nat} (hcalled : .called p.call caller e ∈ s.history) :
    p.event = { e with id := UInt64.ofNat p.number } := by
  obtain ⟨e', hcalled', he⟩ := h.event_given hp
  obtain ⟨-, -, rfl⟩ := Entry.called.inj (h.lawful.opening_eq hcalled rfl hcalled' rfl)
  exact he

/-- Whoever is notified of a publish receives the event that was given, but for the id. -/
theorem Notifies.event_eq (h : ((new config home).play moves).Notifies e i t n) :
    n.publication.event = { e with id := UInt64.ofNat n.publication.number } := by
  obtain ⟨ht, hn, caller, hcalled⟩ := h
  have hco := coherent_play config home moves
  have hmem : n ∈ ((new config home).play moves).notices :=
    mem_notices.mpr ⟨t, Array.mem_of_getElem? ht, hn⟩
  obtain ⟨hp, -⟩ := (hco.fanned_out (seated_play config home moves)).copies n hmem
  exact hco.event_of_called hp hcalled

/-- The logging observer writes the line of what it receives, and nothing else. -/
theorem Notifies.linesBy_logging (h : ((new config home).play moves).Notifies e i t n)
    (ho : n.observer = .logging) :
    (∀ line ∈ ((new config home).play moves).linesBy i,
      line = n.publication.event.receiptLine) ∧
    (t.control = .finished →
      ((new config home).play moves).linesBy i = [n.publication.event.receiptLine]) := by
  obtain ⟨hlines, hall⟩ :=
    linesBy_notification config home moves h.task h.notice (Observer.reticent_logging ho)
  rw [Notice.lines_logging ho] at hlines hall
  exact ⟨fun line hline => List.mem_singleton.mp (hlines.subset hline), hall⟩

end State

end FlowEvents.Bus
