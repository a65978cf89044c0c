import FlowEvents.Proofs.Bus.Coherence
import Mathlib.Algebra.Ring.Nat

/-! # The log as a ledger

Every line of the log is owed before it is written: a publish owes its trace from the moment it has
its number, a notification owes what its observer will write from the moment it is created, and a
caller owes whatever lines its acts contain.  A line is written just when it ceases to be owed, so
at any time the lines written and the lines still owed together are those that have been promised.

Lines are compared as multisets, by counting: nothing is said of their order.
-/

namespace FlowEvents.Bus

open Log (Line)

/-! ## What is owed and what was promised -/

def Act.line? : Act → Option Line
  | .write l => some l
  | _ => none

def linesOf (acts : List Act) : List Line :=
  acts.filterMap Act.line?

theorem Reaction.lines_eq (r : Reaction) : r.lines = linesOf r.acts := rfl

/-- The trace of a publish. -/
def traceLines (config : Config) (e : Event) : List Line :=
  if config.announces e.tag then [e.publishLine] else []

/-- What an observer leaves in the log on account of a copy. -/
def Observer.lines (o : Observer) (e : Event) : List Line :=
  (o.react e).lines ++
    match (o.react e).ending with
    | .panicked text => (o.name.map (Log.panicLine · text)).toList
    | _ => []

def Notice.lines (n : Notice) : List Line :=
  n.observer.lines n.publication.event

/-- The lines that a task is still to write. -/
def Task.owed (config : Config) (t : Task) : List Line :=
  match t.control, t.role with
  | .waiting, .delivery n => n.lines
  | .numbered p, _ => traceLines config p.event ++ (linesOf t.todo ++ (State.lastLine? t).toList)
  | .finished, _ => []
  | _, _ => linesOf t.todo ++ (State.lastLine? t).toList

/-- The lines that a caller brings along. -/
def Move.lines : Move → List Line
  | .join _ acts => linesOf acts
  | .step _ => []

/-- The lines that the observers promise by the reaction and by the ending are those that the begun
notification owes. -/
theorem lines_eq_owed {t : Task} {n : Notice} (hr : t.role = .delivery n) :
    n.lines = linesOf (n.observer.react n.publication.event).acts ++
      (State.lastLine? { t with
        ending := (n.observer.react n.publication.event).ending }).toList := by
  rw [Notice.lines, Observer.lines, Reaction.lines_eq, State.lastLine?, hr]
  cases (n.observer.react n.publication.event).ending <;> rfl

theorem sum_map_set {α : Type} (f : α → Nat) {xs : List α} {i : Nat} {a b : α}
    (h : xs[i]? = some a) : ((xs.set i b).map f).sum + f a = (xs.map f).sum + f b := by
  induction xs generalizing i with
  | nil => simp at h
  | cons x xs ih =>
      cases i with
      | zero =>
          obtain rfl : x = a := by simpa using h
          rw [List.set_cons_zero, List.map_cons, List.map_cons, List.sum_cons, List.sum_cons]
          omega
      | succ i =>
          have ih := ih (i := i) (by simpa using h)
          rw [List.set_cons_succ, List.map_cons, List.map_cons, List.sum_cons, List.sum_cons]
          omega

namespace State

/-- The lines of the log, in the order of writing. -/
def lines (s : State) : List Line :=
  s.log.toList.map (·.line)

def traces (s : State) : List Line :=
  s.publications.flatMap fun p => traceLines s.config p.event

/-- How often a line is still to be written. -/
def owing (s : State) (l : Line) : Nat :=
  (s.tasks.toList.map fun t => (t.owed s.config).count l).sum

/-- What was written and what is owed is what was promised, the callers' `own` lines included. -/
def Balanced (s : State) (own : List Line) : Prop :=
  ∀ l, s.lines.count l + s.owing l =
    s.traces.count l + (s.notices.flatMap Notice.lines).count l + own.count l

variable {s s' : State} {i : Nat} {t t' : Task} {own : List Line}

theorem owing_set (ht : s.tasks[i]? = some t) (htasks : s'.tasks = s.tasks.setIfInBounds i t')
    (hconfig : s'.config = s.config) (l : Line) :
    s'.owing l + (t.owed s.config).count l = s.owing l + (t'.owed s.config).count l := by
  rw [owing, owing, htasks, hconfig, Array.toList_setIfInBounds]
  exact sum_map_set (fun u : Task => (u.owed s.config).count l) (by simpa using ht)

theorem owing_push {v : Task} (htasks : s'.tasks = s.tasks.push v)
    (hconfig : s'.config = s.config) (l : Line) :
    s'.owing l = s.owing l + (v.owed s.config).count l := by
  rw [owing, owing, htasks, hconfig, Array.toList_push, List.map_append, List.sum_append]
  simp

/-- A step of one task, which writes some lines and promises some. -/
theorem Balanced.advance (h : s.Balanced own) (written promised : List Line)
    (ht : s.tasks[i]? = some t)
    (htasks : s'.tasks = s.tasks.setIfInBounds i t') (hrole : t'.role = t.role)
    (hconfig : s'.config = s.config)
    (hlines : s'.lines = s.lines ++ written) (htraces : s'.traces = s.traces ++ promised)
    (local_balance : ∀ l, (t.owed s.config).count l + promised.count l =
      written.count l + (t'.owed s.config).count l) : s'.Balanced own := by
  intro l
  have hbal := h l
  have howing := owing_set ht htasks hconfig l
  have hlocal := local_balance l
  rw [hlines, htraces, notices_eq ht hrole htasks, List.count_append, List.count_append]
  omega

/-- The same if nothing is written or promised. -/
theorem Balanced.silent (h : s.Balanced own) (ht : s.tasks[i]? = some t)
    (htasks : s'.tasks = s.tasks.setIfInBounds i t') (hrole : t'.role = t.role)
    (hconfig : s'.config = s.config) (hlog : s'.log = s.log)
    (htraces : s'.traces = s.traces) (howed : t'.owed s.config = t.owed s.config) :
    s'.Balanced own := by
  refine h.advance [] [] ht htasks hrole hconfig ?_ ?_ ?_
  · rw [lines, hlog, List.append_nil, lines]
  · rw [htraces, List.append_nil]
  · intro l
    rw [howed]
    simp

theorem traces_concat {x : Entry} (hjournal : s'.journal = s.journal.push x)
    (hconfig : s'.config = s.config) :
    s'.traces = s.traces ++ x.publication?.toList.flatMap fun p => traceLines s.config p.event := by
  rw [traces, traces, publications_concat (history_eq_concat hjournal), hconfig,
    List.flatMap_append]

theorem traces_of_numbered {p : Publication} (hjournal : s'.journal = s.journal.push (.numbered p))
    (hconfig : s'.config = s.config) :
    s'.traces = s.traces ++ traceLines s.config p.event := by
  rw [traces_concat hjournal hconfig]
  simp [Entry.publication?]

theorem traces_of_journal {x : Entry} (hjournal : s'.journal = s.journal.push x)
    (hconfig : s'.config = s.config) (hx : x.publication? = none) : s'.traces = s.traces := by
  rw [traces_concat hjournal hconfig, hx]
  exact List.append_nil _

/-- A new task owes what it brings along. -/
theorem Balanced.push {v : Task} (h : s.Balanced own) (htasks : s'.tasks = s.tasks.push v)
    (hconfig : s'.config = s.config) (hlog : s'.log = s.log) (htraces : s'.traces = s.traces)
    {more : List Line} (howed : ∀ l, (v.owed s.config).count l =
      (v.notice?.toList.flatMap Notice.lines).count l + more.count l) :
    s'.Balanced (own ++ more) := by
  intro l
  have hbal := h l
  have hv := howed l
  rw [owing_push htasks hconfig, notices_push htasks, htraces, List.flatMap_append,
    List.count_append, List.count_append, lines, hlog]
  rw [lines] at hbal
  omega

/-- What a task owes between two acts. -/
theorem owed_ready {config : Config} (hc : t.control = .ready) :
    t.owed config = linesOf t.todo ++ (lastLine? t).toList := by
  rw [Task.owed, hc]

theorem Balanced.of_step (h : s.Balanced own) (hstep : Step i s s') : s'.Balanced own := by
  cases hstep with
  | idle => exact h
  | opened t ht hc hr =>
      refine h.silent ht rfl rfl rfl rfl rfl ?_
      obtain ⟨place, role, control, todo, ending⟩ := t
      obtain rfl : control = .waiting := hc
      obtain rfl : role = .caller := hr
      rfl
  | started t notice reaction ht hc hr hreact =>
      subst hreact
      refine h.silent ht rfl rfl rfl rfl (traces_of_journal rfl rfl rfl) ?_
      obtain ⟨place, role, control, todo, ending⟩ := t
      obtain rfl : control = .waiting := hc
      obtain rfl : role = .delivery notice := hr
      exact (lines_eq_owed (t := ⟨place, .delivery notice, .ready, todo, ending⟩) rfl).symm
  | stayed t ht hc htodo hend =>
      refine h.silent ht rfl rfl rfl rfl rfl ?_
      obtain ⟨place, role, control, todo, ending⟩ := t
      obtain rfl : control = .ready := hc
      rfl
  | ended t ht hc htodo hend =>
      refine h.advance (lastLine? t).toList [] ht rfl rfl rfl ?_ ?_ ?_
      · rw [lines, lines]
        cases lastLine? t <;> simp
      · rw [List.append_nil]
        exact traces_of_journal (s := s) rfl rfl rfl
      · intro l
        rw [owed_ready hc, htodo]
        rfl
  | called t e todo ht hc htodo =>
      refine h.silent ht rfl rfl rfl rfl (traces_of_journal rfl rfl rfl) ?_
      obtain ⟨place, role, control, acts, ending⟩ := t
      obtain rfl : control = .ready := hc
      obtain rfl : acts = .publish e :: todo := htodo
      rfl
  | enrolling t o todo ht hc htodo =>
      refine h.silent ht rfl rfl rfl rfl (traces_of_journal rfl rfl rfl) ?_
      obtain ⟨place, role, control, acts, ending⟩ := t
      obtain rfl : control = .ready := hc
      obtain rfl : acts = .register o :: todo := htodo
      rfl
  | written t line todo ht hc htodo =>
      refine h.advance [line] [] ht rfl rfl rfl ?_ ?_ ?_
      · simp [lines]
      · exact (List.append_nil _).symm
      · intro l
        obtain ⟨place, role, control, acts, ending⟩ := t
        obtain rfl : control = .ready := hc
        obtain rfl : acts = .write line :: todo := htodo
        have howed : Task.owed s.config ⟨place, role, .ready, .write line :: todo, ending⟩ =
            [line] ++ Task.owed s.config ⟨place, role, .ready, todo, ending⟩ := rfl
        rw [howed, List.count_append]
        rfl
  | kept t e todo ht hc htodo =>
      refine h.silent ht rfl rfl rfl rfl (traces_of_journal rfl rfl rfl) ?_
      obtain ⟨place, role, control, acts, ending⟩ := t
      obtain rfl : control = .ready := hc
      obtain rfl : acts = .keep e :: todo := htodo
      rfl
  | numbered t call e p ht hc hp =>
      refine h.advance [] (traceLines s.config p.event) ht rfl rfl rfl
        ?_ ?_ ?_
      · exact (List.append_nil _).symm
      · exact traces_of_numbered (s := s) rfl rfl
      · intro l
        obtain ⟨place, role, control, todo, ending⟩ := t
        obtain rfl : control = .called call e := hc
        have howed : Task.owed s.config ⟨place, role, .numbered p, todo, ending⟩ =
            traceLines s.config p.event ++ Task.owed s.config ⟨place, role, .called call e, todo,
              ending⟩ := rfl
        rw [howed, List.count_append, List.count_nil]
        omega
  | traced t p ht hc =>
      refine h.advance (traceLines s.config p.event) [] ht rfl rfl rfl
        ?_ ?_ ?_
      · rw [lines, lines, traceLines]
        split <;> simp
      · exact (List.append_nil _).symm
      · intro l
        obtain ⟨place, role, control, todo, ending⟩ := t
        obtain rfl : control = .numbered p := hc
        have howed : Task.owed s.config ⟨place, role, .numbered p, todo, ending⟩ =
            traceLines s.config p.event ++ Task.owed s.config ⟨place, role, .traced p, todo,
              ending⟩ := rfl
        rw [howed, List.count_append]
        rfl
  | listed t p ht hc | returned t p ht hc | enrolled t call o ht hc
  | registered t call slot ht hc =>
      refine h.silent ht rfl rfl rfl rfl (traces_of_journal rfl rfl rfl) ?_
      obtain ⟨place, role, control, todo, ending⟩ := t
      obtain rfl := hc
      rfl
  | sent t p o slot left ht hc =>
      -- the publish goes on, and then there is a notification more
      have hsend : State.Balanced { s with
          tasks := s.tasks.setIfInBounds i { t with control := .sending p left }
          journal := s.journal.push (.sent p slot s.tasks.size) } own := by
        refine h.silent ht rfl rfl rfl rfl (traces_of_journal rfl rfl rfl) ?_
        obtain ⟨place, role, control, todo, ending⟩ := t
        obtain rfl : control = .sending p ((o, slot) :: left) := hc
        rfl
      rw [← List.append_nil own]
      refine hsend.push (v := Task.delivery (t.place.forNotice s.home) ⟨p, slot, o⟩) ?_ ?_ ?_ ?_ ?_
      · rfl
      · rfl
      · rfl
      · rfl
      · intro l
        simp [Task.delivery, Task.notice?, Task.owed]

/-- **The ledger.** Whatever happens around a bus, the lines written and the lines still owed are
those of the traces, of the notifications and of the callers' own acts. -/
theorem balanced_play (config : Config) (home : Place) (moves : List Move) :
    ((new config home).play moves).Balanced (moves.flatMap Move.lines) := by
  induction moves using List.reverseRecOn with
  | nil =>
      intro l
      rfl
  | append_singleton moves m ih =>
      rw [play_concat, List.flatMap_append, List.flatMap_singleton]
      cases m with
      | join place acts =>
          refine ih.push (v := Task.caller place acts) ?_ ?_ ?_ ?_ ?_
          · rfl
          · rfl
          · rfl
          · rfl
          · intro l
            simp [Task.caller, Task.notice?, Task.owed, Move.lines, lastLine?]
      | step i =>
          rw [Move.lines, List.append_nil]
          exact ih.of_step (step_spec i _)

end State

end FlowEvents.Bus
