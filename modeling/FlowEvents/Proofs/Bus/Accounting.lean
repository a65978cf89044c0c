import FlowEvents.Proofs.Bus.Settling
import FlowEvents.Proofs.Event.Routing

/-! # Whose every line of the log is

Three hands write the log: a publish traces its event, the logging observer tells of each copy it
receives, and the bus tells of each notification that panics.  What each of them writes is said here
line by line, without the functions that make up the lines.  Once the notifications have run the log
is accounted for: it holds these lines, each as often as there is a reason for it, and no other.
-/

namespace FlowEvents.Bus

open Log (Line)

/-! ## The lines -/

/-- The remark behind an event: it is there just if the event's run holds no id. -/
inductive Remark (e : Event) : String → Prop
  | pending (h : e.run.origin.number = 0) : Remark e " (trigger)"
  | adopted (h : e.run.origin.number ≠ 0) : Remark e ""

/-- The line of a published event. -/
inductive Announces (e : Event) : Line → Prop
  | mk (remark : String) (h : Remark e remark) :
      Announces e
        { level := .debug
          message := "<" ++ e.run.text ++ "-ev:" ++ Nat.repr e.id.toNat ++
            "> - bus publish type:<" ++ e.tag ++ ">" ++ remark ++ " from: " ++ e.source.text
          observer := "" }

/-- The line of a received event.  Whether the event is good is told of all but internal ones. -/
inductive Receives (e : Event) : Line → Prop
  | internal (remark rest : String) (h : Remark e remark) (htag : e.tag = "sys." ++ rest) :
      Receives e
        { level := .debug
          message := "event id=" ++ Nat.repr e.id.toNat ++ " run=" ++ e.run.text ++ " tag=" ++
            e.tag ++ " node=" ++ e.source.text ++ remark
          observer := "" }
  | routed (remark good : String) (h : Remark e remark) (htag : ∀ rest, e.tag ≠ "sys." ++ rest)
      (hgood : good = if e.good then "true" else "false") :
      Receives e
        { level := .info
          message := "event id=" ++ Nat.repr e.id.toNat ++ " run=" ++ e.run.text ++ " tag=" ++
            e.tag ++ " good=" ++ good ++ " node=" ++ e.source.text ++ remark
          observer := "" }

/-- What a notification that has run leaves in the log.  An observer that is not the logging one
leaves something only if it panics. -/
inductive Notice.Leaves (n : Notice) : List Line → Prop
  | received (line : Line) (ho : n.observer = .logging)
      (h : Receives n.publication.event line) : n.Leaves [line]
  | panicked (name text : String) (ho : n.observer ≠ .logging) (hname : n.observer.name = some name)
      (h : (n.observer.react n.publication.event).ending = .panicked (some text)) :
      n.Leaves [⟨.warn, "observer panicked: " ++ text, name⟩]
  | textless (name : String) (ho : n.observer ≠ .logging) (hname : n.observer.name = some name)
      (h : (n.observer.react n.publication.event).ending = .panicked none) :
      n.Leaves [⟨.warn, "observer panicked: unknown panic", name⟩]
  | nothing (ho : n.observer ≠ .logging)
      (h : ∀ text, (n.observer.react n.publication.event).ending ≠ .panicked text) : n.Leaves []

/-! ## Where the lines come from -/

theorem remark_stage (e : Event) : Remark e e.stage := by
  by_cases h : e.run.origin.number = 0
  · have hstage : e.stage = " (trigger)" := by
      simp [Event.stage, Event.adopted, Run.adopted, HostId.isAssigned, h]
    rw [hstage]
    exact .pending h
  · have hstage : e.stage = "" := by
      simp [Event.stage, Event.adopted, Run.adopted, HostId.isAssigned, h]
    rw [hstage]
    exact .adopted h

theorem announces_publishLine (e : Event) : Announces e e.publishLine :=
  .mk e.stage (remark_stage e)

theorem receives_receiptLine (e : Event) : Receives e e.receiptLine := by
  have hremark := remark_stage e
  unfold Event.receiptLine
  cases h : e.isInternal with
  | true =>
      obtain ⟨rest, htag⟩ := Event.isInternal_iff.mp h
      have hline := Receives.internal e.stage rest hremark htag
      simpa [String.append_assoc] using hline
  | false =>
      have htag : ∀ rest, e.tag ≠ "sys." ++ rest := by
        intro rest htag
        rw [Event.isInternal_iff.mpr ⟨rest, htag⟩] at h
        cases h
      have hline := Receives.routed e.stage _ hremark htag rfl
      simpa [String.append_assoc] using hline

/-- An observer that has a name and writes nothing itself. -/
def Observer.Silent (o : Observer) : Prop :=
  o.name.isSome = true ∧ ∀ e, (o.react e).lines = []

theorem Notice.leaves_lines {n : Notice} (h : n.observer = .logging ∨ n.observer.Silent) :
    n.Leaves n.lines := by
  by_cases ho : n.observer = .logging
  · have hlines : n.lines = [n.publication.event.receiptLine] := by
      rw [Notice.lines, ho]
      rfl
    rw [hlines]
    exact .received _ ho (receives_receiptLine _)
  · obtain ⟨hname, hsilent⟩ := h.resolve_left ho
    obtain ⟨name, hname⟩ := Option.isSome_iff_exists.mp hname
    rw [Notice.lines, Observer.lines, hsilent, hname]
    cases hend : (n.observer.react n.publication.event).ending with
    | panicked text =>
        cases text with
        | some text => exact .panicked name text ho hname hend
        | none => exact .textless name ho hname hend
    | returned | pending => exact .nothing ho (by simp [hend])

namespace State

variable {s : State}

/-! ## Traced publishes -/

/-- The publishes whose tracing is behind them, in the order of their numbers. -/
def traced (s : State) : List Publication :=
  s.publications.filter fun p => !s.untraced.any (·.call == p.call)

/-- The publishes of a call are one and the same. -/
theorem Coherent.eq_of_call_eq (h : s.Coherent) {p q : Publication} (hp : p ∈ s.publications)
    (hq : q ∈ s.publications) (hcall : p.call = q.call) : p = q :=
  List.inj_on_of_nodup_map h.lawful.calls_nodup hp hq hcall

theorem Coherent.untraced_nodup (h : s.Coherent) : s.untraced.Nodup := by
  rw [untraced, List.Nodup, List.pairwise_filterMap, List.pairwise_iff_getElem]
  intro i j hi hj hij p hp q hq hpq
  subst hpq
  have publisher : ∀ {k : Nat} {t : Task}, s.tasks.toList[k]? = some t → t.untraced? = some p →
      p.publisher = k := by
    intro k t ht hp
    have htold := (h.tasks k t (by simpa using ht)).told
    rw [Task.untraced?_eq_some.mp hp] at htold
    exact htold.1
  have hpi := publisher (List.getElem?_eq_getElem hi) hp
  have hpj := publisher (List.getElem?_eq_getElem hj) hq
  omega

/-- A publish has been traced or stands right before its trace. -/
theorem Coherent.traced_perm (h : s.Coherent) :
    (s.traced ++ s.untraced).Perm s.publications := by
  have hrest : s.untraced.Perm
      (s.publications.filter fun p => !!s.untraced.any (·.call == p.call)) := by
    have hpubs : s.publications.Nodup := List.Nodup.of_map _ h.lawful.calls_nodup
    rw [List.perm_ext_iff_of_nodup h.untraced_nodup (hpubs.filter _)]
    intro p
    rw [List.mem_filter, Bool.not_not, List.any_eq_true]
    constructor
    · intro hp
      exact ⟨(h.of_untraced hp).1, p, hp, beq_self_eq_true _⟩
    · rintro ⟨hp, q, hq, hcall⟩
      rwa [← h.eq_of_call_eq (h.of_untraced hq).1 hp (beq_iff_eq.mp hcall)]
  exact (hrest.append_left _).trans (List.filter_append_perm _ _)

/-- A publish has been traced unless it has just drawn its number. -/
theorem Coherent.mem_traced (h : s.Coherent) {p : Publication} :
    p ∈ s.traced ↔ p ∈ s.publications ∧ ∀ t ∈ s.tasks, t.control ≠ .numbered p := by
  rw [traced, List.mem_filter]
  refine and_congr_right fun hp => ?_
  rw [Bool.not_eq_true', ← Bool.not_eq_true, not_iff_comm, List.any_eq_true]
  push Not
  rw [← mem_untraced]
  constructor
  · intro huntraced
    exact ⟨p, huntraced, beq_self_eq_true _⟩
  · rintro ⟨q, hq, hcall⟩
    rwa [← h.eq_of_call_eq (h.of_untraced hq).1 hp (beq_iff_eq.mp hcall)]

theorem Coherent.mem_traced_of_returned (h : s.Coherent) {p : Publication}
    (hp : .returned p ∈ s.history) : p ∈ s.traced := by
  have hpub : p ∈ s.publications := by
    obtain ⟨n, hn⟩ := List.mem_iff_getElem?.mp hp
    obtain ⟨m, -, hm⟩ := h.lawful.numbered_before_returned hn
    exact mem_publications.mpr (List.mem_of_getElem? hm)
  rcases List.mem_append.mp (h.traced_perm.mem_iff.mpr hpub) with htraced | huntraced
  · exact htraced
  · exact absurd hp (h.of_untraced huntraced).2

/-! ## The account -/

/-- The publishes that the settings have traced: the tracing is not switched off, and the tag is
none of the quiet ones. -/
def announced (config : Config) (s : State) : List Publication :=
  s.traced.filter fun p => config.trace = true ∧ p.event.tag ∉ config.quietTags

theorem announces_iff {config : Config} {tag : String} :
    config.announces tag = true ↔ config.trace = true ∧ tag ∉ config.quietTags := by
  have hsilences : config.silences tag = true ↔ tag ∈ config.quietTags := by
    simp [Config.silences]
  rw [Config.announces, Bool.and_eq_true, Bool.not_eq_true', ← hsilences, Bool.not_eq_true]

theorem traceLines_eq (config : Config) (e : Event) :
    traceLines config e =
      if config.trace = true ∧ e.tag ∉ config.quietTags then [e.publishLine] else [] := by
  unfold traceLines
  simp only [announces_iff]

theorem flatMap_traceLines (config : Config) (s : State) :
    (s.traced.flatMap fun p => traceLines config p.event) =
      (s.announced config).map (·.event.publishLine) := by
  rw [announced]
  induction s.traced with
  | nil => rfl
  | cons p ps ih =>
      rw [List.flatMap_cons, ih, traceLines_eq]
      by_cases hp : config.trace = true ∧ p.event.tag ∉ config.quietTags
      · rw [if_pos hp, List.filter_cons_of_pos (by simpa using hp)]
        rfl
      · rw [if_neg hp, List.filter_cons_of_neg (by simpa using hp)]
        rfl

/-- Once the notifications have run, the log holds the traces and what the notifications left. -/
theorem lines_perm_of_run (config : Config) (home : Place) {moves : List Move}
    (hcallers : ∀ m ∈ moves, m.lines = [])
    (hrun : ∀ t ∈ ((new config home).play moves).tasks, t.notice?.isSome = true →
      t.control = .finished) :
    ((new config home).play moves).lines.Perm
      ((((new config home).play moves).announced config).map (·.event.publishLine) ++
        ((new config home).play moves).notices.flatMap Notice.lines) := by
  have hco := coherent_play config home moves
  have hlines := lines_untraced_perm config home hcallers hrun
  have hconfig : ((new config home).play moves).config = config := config_play moves _
  generalize (new config home).play moves = s at hco hlines hconfig ⊢
  rw [traces, hconfig] at hlines
  -- the traces still to come stand on both sides
  have htraces := hco.traced_perm.flatMap_right fun p => traceLines config p.event
  rw [List.flatMap_append, flatMap_traceLines] at htraces
  rw [← List.perm_append_left_iff (s.untraced.flatMap fun p => traceLines config p.event),
    ← List.append_assoc]
  refine List.perm_append_comm.trans (hlines.trans ?_)
  exact (htraces.symm.trans List.perm_append_comm).append_right _

/-- What a collector shows of the lines is accounted for. -/
structure Accounted (config : Config) (greatest : Option Log.Level) (s : State) : Prop where
  /-- It shows, of the levels it takes in, a line for each publish that the settings have traced and
  what each notification leaves, and nothing else. -/
  lines : ∃ (announcements : List Line) (left : List (List Line)),
    List.Forall₂ (fun p line => Announces p.event line) (s.announced config) announcements ∧
    List.Forall₂ Notice.Leaves s.notices left ∧
    (Log.collect greatest s.lines).Perm
      ((announcements ++ left.flatten).filter fun line => Log.admits greatest line.level)
  /-- A publish has been traced unless it has just drawn its number. -/
  traced : ∀ p, p ∈ s.traced ↔ p ∈ s.publications ∧ ∀ t ∈ s.tasks, t.control ≠ .numbered p
  /-- One that has returned has been traced. -/
  returned : ∀ p, .returned p ∈ s.history → p ∈ s.traced
  /-- No publish has been traced twice. -/
  once : (s.traced.map (·.call)).Nodup

/-- **The log is accounted for.** Let the callers write nothing of their own, let every observer be
the logging one or have a name and write nothing, and let every notification have run.  Then
whatever the settings, the publishes, the reactions and the order in which the tasks went on, a
collector shows a line for each traced publish, for each receipt of the logging observer and for
each panic, as far as their levels are taken in. -/
theorem log_accounted (config : Config) (home : Place) (moves : List Move)
    (greatest : Option Log.Level) (hcallers : ∀ m ∈ moves, m.lines = [])
    (hobservers : ∀ o ∈ ((new config home).play moves).observers, o = .logging ∨ o.Silent)
    (hrun : ∀ t ∈ ((new config home).play moves).tasks, t.notice?.isSome = true →
      t.control = .finished) :
    ((new config home).play moves).Accounted config greatest := by
  have hco := coherent_play config home moves
  have hseat := seated_play config home moves
  have hlines := lines_perm_of_run config home hcallers hrun
  generalize (new config home).play moves = s at hco hseat hlines hobservers ⊢
  constructor
  · refine ⟨(s.announced config).map (·.event.publishLine), s.notices.map Notice.lines,
      ?_, ?_, ?_⟩
    · rw [List.forall₂_map_right_iff, List.forall₂_same]
      exact fun p _ => announces_publishLine p.event
    · rw [List.forall₂_map_right_iff, List.forall₂_same]
      intro n hn
      exact Notice.leaves_lines
        (hobservers n.observer (List.mem_of_getElem? (hseat.observer_of_notice hn)))
    · rw [← List.flatMap_def]
      exact (List.mergeSort_perm _ _).trans (hlines.filter _)
  · exact fun p => hco.mem_traced
  · exact fun p hp => hco.mem_traced_of_returned hp
  · exact (List.filter_sublist.map _).nodup hco.lawful.calls_nodup

/-! ## Two that panic -/

def tripping : Event :=
  Event.unpublished default ⟨.task, "trip"⟩ "trip.done"

def clumsy : Observer :=
  ⟨some "clumsy", fun _ => ⟨[], .panicked (some "tripped")⟩⟩

/-- An observer that panics with something that is no text. -/
def speechless : Observer :=
  ⟨some "speechless", fun _ => ⟨[], .panicked none⟩⟩

/-- Task 0 registers the logging observer and two that panic, and task 1 publishes.  The logging
observer, task 2, is done before the others have been notified. -/
def stumbling : List Move :=
  [.join .thread [.register .logging, .register clumsy, .register speechless], .step 0, .step 0,
    .step 0, .step 0, .step 0, .step 0, .step 0, .step 0, .step 0,
    .join .thread [.publish tripping], .step 1, .step 1, .step 1, .step 1, .step 1, .step 2,
    .step 2, .step 2, .step 1, .step 1, .step 4, .step 4, .step 1, .step 3, .step 3]

def tripped : Publication :=
  ⟨3, 1, 1, { tripping with id := UInt64.ofNat 1 }⟩

set_option maxRecDepth 8000 in
theorem stumbling_tasks : ((new default .thread).play stumbling).tasks =
    #[⟨.thread, .caller, .ready, [], .returned⟩, ⟨.thread, .caller, .ready, [], .returned⟩,
      ⟨.thread, .delivery ⟨tripped, 0, .logging⟩, .finished, [], .returned⟩,
      ⟨.thread, .delivery ⟨tripped, 1, clumsy⟩, .finished, [], .panicked (some "tripped")⟩,
      ⟨.thread, .delivery ⟨tripped, 2, speechless⟩, .finished, [], .panicked none⟩] :=
  rfl

set_option maxRecDepth 8000 in
theorem stumbling_observers : ((new default .thread).play stumbling).observers =
    [.logging, clumsy, speechless] :=
  rfl

/-- Of a publish that two observers panic at, a collector without the details shows what the
logging observer received and the two panics. -/
theorem stumbling_accounted :
    ((new default .thread).play stumbling).notices =
        [⟨tripped, 0, .logging⟩, ⟨tripped, 1, clumsy⟩, ⟨tripped, 2, speechless⟩] ∧
      ((new default .thread).play stumbling).Accounted default (some .info) := by
  have hnotices : ((new default .thread).play stumbling).notices =
      [⟨tripped, 0, .logging⟩, ⟨tripped, 1, clumsy⟩, ⟨tripped, 2, speechless⟩] := by
    rw [notices, stumbling_tasks]
    rfl
  refine ⟨hnotices, log_accounted default .thread stumbling (some .info) ?_ ?_ ?_⟩
  · simp [stumbling, Move.lines, linesOf, Act.line?]
  · rw [stumbling_observers]
    have hclumsy : clumsy.Silent := ⟨rfl, fun _ => rfl⟩
    have hspeechless : speechless.Silent := ⟨rfl, fun _ => rfl⟩
    simp [hclumsy, hspeechless]
  · rw [stumbling_tasks]
    simp [Task.notice?]

end State

end FlowEvents.Bus
