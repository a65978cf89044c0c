import FlowEvents.Proofs.Bus.Accounting

/-! # The settings decide about the log only

What the tasks utter in an execution does not depend on the settings: these decide, of each trace,
whether it is written.  So the executions of the same moves under any two settings agree in all but
the log, and the log under each of them can be read off the utterances.
-/

namespace FlowEvents.Bus

/-- What a task has to tell: the trace of a publish, for which the settings are asked, or a line
that is written in any case. -/
inductive Utterance where
  | trace (writer : Nat) (p : Publication)
  | line (w : Written)

namespace Utterance

/-- What the settings let into the log. -/
def written (config : Config) : Utterance → List Written
  | .trace writer p => (traceLines config p.event).map (Written.mk writer)
  | .line w => [w]

/-- The publish that is traced. -/
def traced? : Utterance → Option Publication
  | .trace _ p => some p
  | .line _ => none

/-- True of the trace of a publish with the tag. -/
def isTraceOf (tag : String) (u : Utterance) : Bool :=
  u.traced?.any (·.event.tag == tag)

end Utterance

/-- What task `i` utters when it goes a step further. -/
def Task.utters (i : Nat) (t : Task) : List Utterance :=
  match t.control, t.todo with
  | .numbered p, _ => [.trace i p]
  | .ready, [] =>
    if t.ending = .pending then []
    else (State.lastLine? t).toList.map fun line => .line ⟨i, line⟩
  | .ready, .write line :: _ => [.line ⟨i, line⟩]
  | _, _ => []

namespace State

variable {s s' : State} {i : Nat}

def utters (s : State) (i : Nat) : List Utterance :=
  match s.tasks[i]? with
  | none => []
  | some t => t.utters i

/-- What is uttered in an execution. -/
def utterances : List Move → State → List Utterance
  | [], _ => []
  | .join place acts :: moves, s => utterances moves (s.move (.join place acts))
  | .step i :: moves, s => s.utters i ++ utterances moves (s.move (.step i))

/-- The state under other settings and with another log. -/
def retuned (config : Config) (log : List Written) (s : State) : State :=
  { s with config, log := log.toArray }

/-! ## Under other settings -/

theorem append_written_nil (config : Config) (log : List Written) :
    log ++ ([] : List Utterance).flatMap (·.written config) = log :=
  List.append_nil log

theorem retuned_write (config : Config) (log : List Written) (s : State) (i : Nat)
    (line : Log.Line) :
    (s.retuned config log).write i line =
      (s.write i line).retuned config (log ++ [⟨i, line⟩]) := by
  simp [retuned, write]

theorem retuned_finish (config : Config) (log : List Written) (i : Nat) (t : Task) (s : State)
    (hc : t.control = .ready) (htodo : t.todo = []) :
    (s.retuned config log).finish i t =
      (s.finish i t).retuned config (log ++ (t.utters i).flatMap (·.written config)) := by
  unfold finish Task.utters
  rw [hc, htodo]
  dsimp only
  split
  · rw [append_written_nil]
    rfl
  · cases lastLine? t with
    | none =>
        rw [Option.toList_none, List.map_nil, append_written_nil]
        rfl
    | some line =>
        exact retuned_write config log ((s.setTask i _).note (.ended i)) i line

/-- The trace of a publish goes by the settings, whatever they are. -/
theorem retuned_announce (config : Config) (log : List Written) (i : Nat) (p : Publication)
    (s : State) :
    (if config.announces p.event.tag then
      (s.retuned config log).write i p.event.publishLine else s.retuned config log) =
    (if s.config.announces p.event.tag then s.write i p.event.publishLine else s).retuned config
      (log ++ (Utterance.trace i p).written config) := by
  have hright : ∀ log, (if s.config.announces p.event.tag then
      s.write i p.event.publishLine else s).retuned config log = s.retuned config log := by
    intro log
    split <;> rfl
  rw [hright, Utterance.written, traceLines]
  split
  · exact retuned_write config log s i p.event.publishLine
  · rw [List.map_nil, List.append_nil]

theorem retuned_step (config : Config) (log : List Written) (i : Nat) (s : State) :
    (s.retuned config log).step i =
      (s.step i).retuned config (log ++ (s.utters i).flatMap (·.written config)) := by
  have htasks : (s.retuned config log).tasks[i]? = s.tasks[i]? := rfl
  unfold step utters
  rw [htasks]
  cases ht : s.tasks[i]? with
  | none => rw [append_written_nil]
  | some t =>
      dsimp only
      rcases t with ⟨place, role, control, todo, ending⟩
      cases control with
      | ready =>
          cases todo with
          | nil => exact retuned_finish config log i _ s rfl rfl
          | cons act todo =>
              cases act with
              | write line => exact retuned_write config log (s.setTask i _) i line
              | publish e | register o | keep e =>
                  rw [Task.utters, append_written_nil]
                  rfl
      | numbered p =>
          rw [Task.utters, List.flatMap_singleton]
          exact retuned_announce config log i p (s.setTask i _)
      | waiting =>
          rw [Task.utters, append_written_nil]
          cases role <;> rfl
      | sending p left =>
          rw [Task.utters, append_written_nil]
          cases left <;> rfl
      | pending | finished => rw [Task.utters, append_written_nil]
      | _ =>
          rw [Task.utters, append_written_nil]
          rfl

theorem retuned_play (config : Config) (log : List Written) (moves : List Move) (s : State) :
    (s.retuned config log).play moves = (s.play moves).retuned config
      (log ++ (utterances moves s).flatMap (·.written config)) := by
  induction moves generalizing s log with
  | nil =>
      rw [utterances, append_written_nil]
      rfl
  | cons m moves ih =>
      cases m with
      | join place acts => exact ih log (s.move (.join place acts))
      | step i =>
          have hstep : (s.retuned config log).move (.step i) = _ := retuned_step config log i s
          show ((s.retuned config log).move (.step i)).play moves = _
          rw [hstep, ih, utterances, List.flatMap_append, List.append_assoc]
          rfl

/-! ## The traces -/

theorem filterMap_set_perm {α β : Type} (f : α → Option β) {xs : List α} {i : Nat} {x : α} (y : α)
    (hx : xs[i]? = some x) :
    ((f x).toList ++ (xs.set i y).filterMap f).Perm ((f y).toList ++ xs.filterMap f) := by
  induction xs generalizing i with
  | nil => cases hx
  | cons z xs ih =>
      cases i with
      | zero =>
          obtain rfl : z = x := by simpa using hx
          rw [List.set_cons_zero, List.filterMap_cons, List.filterMap_cons]
          cases f z <;> cases f y <;> simp [List.Perm.swap]
      | succ i =>
          have ih := ih (by simpa using hx)
          rw [List.set_cons_succ, List.filterMap_cons, List.filterMap_cons]
          cases hz : f z with
          | none => exact ih
          | some w => exact List.perm_middle.trans ((ih.cons w).trans List.perm_middle.symm)

theorem untraced_setTask_perm {t : Task} (t' : Task) (ht : s.tasks[i]? = some t) :
    (t.untraced?.toList ++ (s.setTask i t').untraced).Perm (t'.untraced?.toList ++ s.untraced) := by
  rw [untraced, setTask, Array.toList_setIfInBounds]
  exact filterMap_set_perm Task.untraced? t' (Array.getElem?_toList.trans ht)

theorem untraced_spawn {t : Task} (ht : t.untraced? = none) (s : State) :
    (s.spawn t).untraced = s.untraced := by
  rw [untraced, untraced, spawn, Array.toList_push, List.filterMap_append]
  simp [ht]

theorem traced?_utters (s : State) (i : Nat) :
    (s.utters i).filterMap Utterance.traced? = (s.tasks[i]?.bind Task.untraced?).toList := by
  unfold utters
  cases s.tasks[i]? with
  | none => rfl
  | some t =>
      rcases t with ⟨place, role, control, todo, ending⟩
      cases control with
      | ready =>
          cases todo with
          | nil =>
              dsimp only [Task.utters]
              split
              · rfl
              · cases lastLine? _ <;> rfl
          | cons act todo => cases act <;> rfl
      | _ => rfl

/-- A step that traces no publish leaves those to be traced that draw a number. -/
theorem Step.untraced_perm (h : Step i s s') (hnone : s.tasks[i]?.bind Task.untraced? = none) :
    (s'.untraced ++ s.publications).Perm (s.untraced ++ s'.publications) := by
  have kept : ∀ {t : Task} {ps : List Publication} (t' : Task), s.tasks[i]? = some t →
      s'.untraced = (s.setTask i t').untraced → s'.publications = s.publications ++ ps →
      t'.untraced?.toList = ps →
      (s'.untraced ++ s.publications).Perm (s.untraced ++ s'.publications) := by
    intro t ps t' ht huntraced hpubs hps
    have hperm := untraced_setTask_perm t' ht
    rw [ht, Option.bind_some] at hnone
    rw [hnone, ← huntraced, Option.toList_none, List.nil_append, hps] at hperm
    rw [hpubs, ← List.append_assoc]
    refine (hperm.append_right _).trans ?_
    rw [List.append_assoc]
    exact List.perm_append_comm
  have noted : ∀ {t : Task} {x : Entry} (t' : Task), s.tasks[i]? = some t →
      s'.untraced = (s.setTask i t').untraced → s'.history = s.history ++ [x] →
      t'.untraced? = x.publication? →
      (s'.untraced ++ s.publications).Perm (s.untraced ++ s'.publications) := by
    intro t x t' ht huntraced hhist hx
    exact kept t' ht huntraced (publications_concat hhist) (by rw [hx])
  cases h with
  | idle => exact List.Perm.refl _
  | traced t p ht hc => simp [ht, Task.untraced?, hc] at hnone
  | opened t ht | stayed t ht => exact kept _ ht rfl (List.append_nil _).symm rfl
  | written t line todo ht hc =>
      exact kept _ ht rfl (List.append_nil _).symm (by simp [Task.untraced?, hc])
  | kept t e todo ht hc =>
      exact noted _ ht rfl (history_eq_concat rfl) (by simp [Task.untraced?, hc, Entry.publication?])
  | sent t p o slot left ht =>
      refine noted { t with control := .sending p left } ht ?_ (history_eq_concat rfl) rfl
      exact untraced_spawn rfl (s.setTask i _)
  | started t n reaction ht | ended t ht | called t e todo ht | enrolling t o todo ht
  | numbered t call e p ht | listed t p ht | returned t p ht | enrolled t call o ht
  | registered t call slot ht =>
      exact noted _ ht rfl (history_eq_concat rfl) rfl

/-- What a step tells of publishes are the traces that it takes off those still to be traced. -/
theorem untraced_step_perm (i : Nat) (s : State) :
    ((s.utters i).filterMap Utterance.traced? ++ (s.step i).untraced ++ s.publications).Perm
      (s.untraced ++ (s.step i).publications) := by
  rw [traced?_utters]
  cases hp : s.tasks[i]?.bind Task.untraced? with
  | none => exact (step_spec i s).untraced_perm hp
  | some p =>
      obtain ⟨t, ht, htask⟩ := Option.bind_eq_some_iff.mp hp
      have hc : t.control = .numbered p := Task.untraced?_eq_some.mp htask
      obtain ⟨log, hstep⟩ : ∃ log, s.step i =
          { s.setTask i { t with control := .traced p } with log } := by
        rw [step, ht]
        dsimp only
        rw [hc]
        dsimp only
        split <;> exact ⟨_, rfl⟩
      have hperm := untraced_setTask_perm { t with control := .traced p } ht
      rw [htask] at hperm
      rw [hstep]
      exact hperm.append_right s.publications

theorem untraced_play_perm (moves : List Move) (s : State) :
    ((utterances moves s).filterMap Utterance.traced? ++ (s.play moves).untraced ++
      s.publications).Perm (s.untraced ++ (s.play moves).publications) := by
  induction moves generalizing s with
  | nil => exact List.Perm.refl _
  | cons m moves ih =>
      cases m with
      | join place acts =>
          have hjoin : (s.move (.join place acts)).untraced = s.untraced := untraced_spawn rfl s
          have ih := ih (s.move (.join place acts))
          rw [hjoin] at ih
          exact ih
      | step i =>
          classical
          have hstep := untraced_step_perm i s
          have ih := ih (s.step i)
          show ((utterances (.step i :: moves) s).filterMap Utterance.traced? ++
            ((s.step i).play moves).untraced ++ s.publications).Perm
              (s.untraced ++ ((s.step i).play moves).publications)
          rw [List.perm_iff_count] at hstep ih ⊢
          intro p
          have hstep := hstep p
          have ih := ih p
          have hsplit : utterances (.step i :: moves) s =
            s.utters i ++ utterances moves (s.step i) := rfl
          rw [hsplit, List.filterMap_append]
          simp only [List.count_append] at hstep ih ⊢
          omega

/-- The traces that have been uttered are those of the publishes whose tracing is behind them. -/
theorem traces_perm (config : Config) (home : Place) (moves : List Move) :
    ((utterances moves (new config home)).filterMap Utterance.traced?).Perm
      ((new config home).play moves).traced := by
  have hplay := untraced_play_perm moves (new config home)
  have hnil : (new config home).publications = [] := rfl
  have hnone : (new config home).untraced = [] := rfl
  rw [hnil, hnone, List.append_nil, List.nil_append] at hplay
  have htraced := (coherent_play config home moves).traced_perm
  exact (List.perm_append_right_iff _).mp (hplay.trans htraced.symm)

/-! ## The settings -/

theorem written_trace (config : Config) (writer : Nat) (p : Publication) :
    (Utterance.trace writer p).written config =
      if config.trace = true ∧ p.event.tag ∉ config.quietTags then
        [⟨writer, p.event.publishLine⟩] else [] := by
  rw [Utterance.written, traceLines_eq]
  split <;> rfl

/-- The order of the quiet tags, and how often they are given, does not matter. -/
theorem written_congr {config config' : Config} (htrace : config.trace = config'.trace)
    (hquiet : ∀ tag, tag ∈ config.quietTags ↔ tag ∈ config'.quietTags) (u : Utterance) :
    u.written config = u.written config' := by
  cases u with
  | line w => rfl
  | trace writer p => simp only [written_trace, htrace, hquiet]

theorem written_quieten (config : Config) (tag : String) (u : Utterance) :
    u.written (config.quieten tag) = if u.isTraceOf tag then [] else u.written config := by
  cases u with
  | line w => rfl
  | trace writer p =>
      have hmem : p.event.tag ∈ (config.quieten tag).quietTags ↔
          p.event.tag ∈ config.quietTags ∨ p.event.tag = tag := by
        rw [Config.quieten, List.mem_append, List.mem_singleton]
      have htrace : (config.quieten tag).trace = config.trace := rfl
      have hof : (Utterance.trace writer p).isTraceOf tag = true ↔ p.event.tag = tag :=
        beq_iff_eq
      simp only [written_trace, hmem, htrace, hof]
      by_cases h : p.event.tag = tag <;> simp [h]

theorem flatMap_written_quieten (config : Config) (tag : String) (us : List Utterance) :
    us.flatMap (·.written (config.quieten tag)) =
      (us.filter fun u => !u.isTraceOf tag).flatMap (·.written config) := by
  induction us with
  | nil => rfl
  | cons u us ih =>
      rw [List.flatMap_cons, ih, written_quieten, List.filter_cons]
      cases u.isTraceOf tag <;> rfl

/-- All but the settings and the log is the same. -/
structure SameDistribution (s s' : State) : Prop where
  ids : s.publications.map (·.event.id) = s'.publications.map (·.event.id)
  lastNumber : s.lastNumber = s'.lastNumber
  observerCount : s.observers.length = s'.observers.length
  /-- The same notifications carry the same copies. -/
  notices : s.notices = s'.notices
  history : s.history = s'.history
  tasks : s.tasks = s'.tasks
  rest : s' = { s with config := s'.config, log := s'.log }

theorem play_eq_retuned (config : Config) (home : Place) (moves : List Move) :
    (new config home).play moves = ((new default home).play moves).retuned config
      ((utterances moves (new default home)).flatMap (·.written config)) :=
  retuned_play config [] moves (new default home)

theorem log_play (config : Config) (home : Place) (moves : List Move) :
    ((new config home).play moves).log.toList =
      (utterances moves (new default home)).flatMap (·.written config) := by
  rw [play_eq_retuned]
  rfl

/-- The settings decide which of the traces among the utterances of an execution are written, and
nothing else. -/
structure Inert (home : Place) (moves : List Move) (us : List Utterance) : Prop where
  distribution : ∀ config config', SameDistribution ((new config home).play moves)
    ((new config' home).play moves)
  log : ∀ config, ((new config home).play moves).log.toList = us.flatMap (·.written config)
  /-- A collector takes its pick of the lines that have been written. -/
  shown : ∀ config greatest, (Log.collect greatest ((new config home).play moves).lines).Perm
    (((us.flatMap (·.written config)).map (·.line)).filter fun l => Log.admits greatest l.level)
  /-- Each publish whose tracing is behind it is among the traces, once. -/
  traces : ∀ config, (us.filterMap Utterance.traced?).Perm
    ((new config home).play moves).traced
  returned : ∀ config p, .returned p ∈ ((new config home).play moves).history →
    p ∈ us.filterMap Utterance.traced?
  /-- A trace is written just if the tracing is on and the tag is none of the quiet ones. -/
  written : ∀ config writer p, (Utterance.trace writer p).written config =
    if config.trace = true ∧ p.event.tag ∉ config.quietTags then
      [⟨writer, p.event.publishLine⟩] else []
  /-- The quiet tags are a set. -/
  reordered : ∀ config config' : Config, config.trace = config'.trace →
    (∀ tag, tag ∈ config.quietTags ↔ tag ∈ config'.quietTags) →
    ((new config home).play moves).log = ((new config' home).play moves).log
  /-- One more quiet tag takes away the traces of that tag. -/
  quieted : ∀ config tag, ((new (config.quieten tag) home).play moves).log.toList =
    (us.filter fun u => !u.isTraceOf tag).flatMap (·.written config)

/-- **The settings do not reach the distribution.** The same moves lead under any two settings to
states that agree in all but the settings and the log, whatever the publishers and the observers do.
What the tasks utter on the way is the same too, and the settings only let more or fewer of the
traces into the log. -/
theorem diagnostics_inert (home : Place) (moves : List Move) :
    Inert home moves (utterances moves (new default home)) where
  distribution config config' := by
    rw [play_eq_retuned config, play_eq_retuned config']
    exact ⟨rfl, rfl, rfl, rfl, rfl, rfl, rfl⟩
  log config := log_play config home moves
  shown config greatest := by
    rw [← log_play]
    exact List.mergeSort_perm _ _
  traces config := by
    rw [play_eq_retuned]
    exact traces_perm default home moves
  returned config p hp := by
    rw [play_eq_retuned] at hp
    have htraced := (coherent_play default home moves).mem_traced_of_returned hp
    exact (traces_perm default home moves).mem_iff.mpr htraced
  written config writer p := written_trace config writer p
  reordered config config' htrace hquiet := by
    rw [← Array.toList_inj, log_play, log_play]
    exact List.flatMap_congr fun u _ => written_congr htrace hquiet u
  quieted config tag := by
    rw [log_play, flatMap_written_quieten]

end State

end FlowEvents.Bus
