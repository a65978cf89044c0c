import FlowEvents.Proofs.Bus.Authors
import FlowEvents.Proofs.Bus.Twins

/-! # The executor is hidden

Where a run is executed shows in nothing but the run itself: not in how it answers, not in whether
two of its events are equal, and not in any line that the bus or the logging observer writes of
them.
-/

namespace FlowEvents.Bus

open Log (Line)

namespace State

/-- Task `i` is about to trace a publish of the event `e`. -/
structure Traces (s : State) (e : Event) (i : Nat) (p : Publication) : Prop where
  control : ∃ t, s.tasks[i]? = some t ∧ t.control = .numbered p
  called : ∃ caller, .called p.call caller e ∈ s.history

variable {s : State} {e e' : Event} {i i' : Nat} {p p' : Publication} {t t' : Task} {n n' : Notice}
variable {config config' : Config} {home home' : Place} {moves moves' : List Move}

theorem Traces.event_eq (h : ((new config home).play moves).Traces e i p) :
    p.event = { e with id := UInt64.ofNat p.number } := by
  obtain ⟨⟨t, ht, hc⟩, caller, hcalled⟩ := h
  have hco := coherent_play config home moves
  have huntraced := mem_untraced.mpr ⟨t, Array.mem_of_getElem? ht, hc⟩
  exact hco.event_of_called (hco.of_untraced huntraced).1 hcalled

/-- The step writes the trace, if the settings ask for it, and nothing else. -/
theorem Traces.linesBy_step (h : ((new config home).play moves).Traces e i p) :
    (((new config home).play moves).step i).linesBy i =
      ((new config home).play moves).linesBy i ++ traceLines config p.event := by
  obtain ⟨⟨t, ht, hc⟩, -⟩ := h
  have hconfig : ((new config home).play moves).config = config := config_play moves _
  generalize (new config home).play moves = s at ht hconfig ⊢
  subst hconfig
  refine linesBy_self ?_
  simp only [step, ht, hc, traceLines]
  by_cases hann : s.config.announces p.event.tag = true
  · simp [setTask, write, hann]
  · simp [setTask, hann]

/-- What is to be seen of two events. -/
structure SameOutside (e e' : Event) : Prop where
  /-- Given the same id they are equal, unless there is a non-number in them. -/
  equal : ∀ id, ({ e with id } == { e' with id }) = true ↔
    ∀ x ∈ Tree.entriesFloats e.payload.entries, x.isNaN = false
  internal : e.isInternal = e'.isInternal
  adopted : e.adopted = e'.adopted
  /-- Published with the same id and under the same settings they leave the same trace. -/
  traced : ∀ config home home' moves moves' i i' p p',
    ((new config home).play moves).Traces e i p →
    ((new config home').play moves').Traces e' i' p' → p.event.id = p'.event.id →
      ∃ trace,
        (((new config home).play moves).step i).linesBy i =
          ((new config home).play moves).linesBy i ++ trace ∧
        (((new config home').play moves').step i').linesBy i' =
          ((new config home').play moves').linesBy i' ++ trace
  /-- Whatever the settings, the logging observer writes the same of them. -/
  logged : ∀ config config' home home' moves moves' i i' t t' n n',
    ((new config home).play moves).Notifies e i t n →
    ((new config' home').play moves').Notifies e' i' t' n' →
    n.publication.event.id = n'.publication.event.id →
    n.observer = .logging → n'.observer = .logging →
    t.control = .finished → t'.control = .finished →
      ((new config home).play moves).linesBy i = ((new config' home').play moves').linesBy i'

/-- The id and what twins have in common make up twins. -/
theorem twin_of_id_eq {id id' : UInt64} (h : e.Twin e') (heq : id = id') :
    Event.Twin { e with id } { e' with id := id' } := by
  subst heq
  exact h.withId id

theorem sameOutside (h : e.Twin e') : SameOutside e e' where
  equal id := (h.withId id).beq_iff
  internal := by
    rw [Event.isInternal, Event.isInternal, h.tag_eq]
  adopted := h.adopted_eq
  traced config home home' moves moves' i i' p p' hp hp' hid := by
    have htwin : p.event.Twin p'.event := by
      rw [hp.event_eq, hp'.event_eq] at hid ⊢
      exact twin_of_id_eq h hid
    refine ⟨traceLines config p.event, hp.linesBy_step, ?_⟩
    have htrace : traceLines config p.event = traceLines config p'.event := by
      rw [traceLines, traceLines, htwin.tag_eq, htwin.publishLine_eq]
    rw [htrace]
    exact hp'.linesBy_step
  logged config config' home home' moves moves' i i' t t' n n' hn hn' hid ho ho' hc hc' := by
    have htwin : n.publication.event.Twin n'.publication.event := by
      rw [hn.event_eq, hn'.event_eq] at hid ⊢
      exact twin_of_id_eq h hid
    rw [(hn.linesBy_logging ho).2 hc, (hn'.linesBy_logging ho').2 hc', htwin.receiptLine_eq]

/-- **The executor is hidden.** Runs of one identity that are offered the same ids answer alike and
stay of one identity, wherever they are moved.  Events that differ in nothing but the executor are
equal, as far as they can be, and cause the same lines wherever they are published; and executions
that differ in nothing else, with observers that do not look at the executor, write the same log. -/
theorem executor_hidden :
    (∀ (r r' : Run) (changes changes' : List Run.Change), r.flow = r'.flow →
      r.origin = r'.origin → Run.offers changes = Run.offers changes' →
        r.SameCourse r' changes changes') ∧
    (∀ e e' : Event, e.Twin e' → SameOutside e e') ∧
    ∀ (config : Config) (home : Place) (moves moves' : List Move),
      List.Forall₂ Move.Twin moves moves' →
        ((new config home).play moves).Twin ((new config home).play moves') := by
  refine ⟨?_, fun e e' h => sameOutside h, fun config home moves moves' => twin_play config home⟩
  intro r r' changes changes' hflow horigin hoffers
  exact Run.sameCourse (Prod.ext hflow horigin) hoffers

/-! ## A run that is executed here or there -/

def shipped (executor : String) : Event :=
  Event.unpublished ⟨⟨"build", 1⟩, ⟨"alpha", 7⟩, executor⟩ ⟨.task, "ship"⟩ "ship.done"

/-- Task 0 registers the logging observer, task 1 publishes, and task 2 is the notification. -/
def shipping (executor : String) : List Move :=
  [.join .thread [.register .logging], .step 0, .step 0, .step 0,
    .join .thread [.publish (shipped executor)], .step 1, .step 1, .step 1, .step 1, .step 1,
    .step 1, .step 2, .step 2, .step 2]

theorem shipping_twin (executor executor' : String) :
    List.Forall₂ Move.Twin (shipping executor) (shipping executor') := by
  have hstep : ∀ i, Move.Twin (.step i) (.step i) := .step
  simp only [shipping, List.forall₂_cons, hstep, true_and, List.Forall₂.nil, and_true]
  refine ⟨.join _ (.cons (.register .logging) .nil), .join _ (.cons (.publish ?_) .nil)⟩
  exact ⟨executor', rfl⟩

set_option maxRecDepth 8000 in
/-- The run of the event is executed by `alpha` in one execution and by `beta` in the other. -/
theorem shipping_hidden :
    List.Forall₂ Move.Twin (shipping "alpha") (shipping "beta") ∧
      ((new default .thread).play (shipping "alpha")).log =
        ((new default .thread).play (shipping "beta")).log ∧
      ((new default .thread).play (shipping "alpha")).log.size = 2 ∧
      ({ shipped "alpha" with id := 1 } == { shipped "beta" with id := 1 }) = true ∧
      (shipped "alpha").run.SameCourse (shipped "beta").run
        [.adopt ⟨"gamma", 1⟩] [.migrate "delta", .adopt ⟨"gamma", 1⟩] := by
  obtain ⟨hruns, hevents, hplay⟩ := executor_hidden
  have htwin := shipping_twin "alpha" "beta"
  have hsame := hevents (shipped "alpha") (shipped "beta") ⟨"beta", rfl⟩
  have hnumbers : ∀ x ∈ Tree.entriesFloats (shipped "alpha").payload.entries, x.isNaN = false :=
    fun x hx => by cases hx
  exact ⟨htwin, (hplay default .thread _ _ htwin).log, rfl, (hsame.equal 1).mpr hnumbers,
    hruns _ _ _ _ rfl rfl rfl⟩

/-- An event whose payload holds a non-number. -/
def measured (executor : String) : Event :=
  { shipped executor with payload := .ofPairs [("t", .float ⟨0x7ff8000000000000⟩)] }

/-- Nobody looks at the executor here, and still the events are not equal. -/
theorem measured_ne : (measured "alpha").Twin (measured "beta") ∧
    ({ measured "alpha" with id := 1 } == { measured "beta" with id := 1 }) = false :=
  ⟨⟨"beta", rfl⟩, by decide⟩

end State

end FlowEvents.Bus
