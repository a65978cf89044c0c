import FlowEvents.Proofs.Bus.Chronology
import FlowEvents.Proofs.Bus.Execution

/-! # The state and its journal agree

The journal says of every task how far it has come: `Told` reads off the story of a task's call that
the task is where its control says.  A state is *coherent* if its journal is lawful, its counters
count what the journal tells, and every task is where the journal says.

Coherence is the invariant behind everything that is proved of executions: `coherent_play`.
-/

namespace FlowEvents.Bus

/-! ## What the journal tells of a task -/

/-- What the journal says about the call that task `i` is in. -/
def Told (journal : List Entry) (i : Nat) : Control → Prop
  | .waiting => True
  | .ready => True
  | .called call e => story call journal = [.called call i e]
  | .numbered p =>
    p.publisher = i ∧ ∃ e, story p.call journal = [.called p.call p.publisher e, .numbered p]
  | .traced p =>
    p.publisher = i ∧ ∃ e, story p.call journal = [.called p.call p.publisher e, .numbered p]
  | .sending p left =>
    p.publisher = i ∧ ∃ e tasks,
      story p.call journal = publishing e p (tasks.length + left.length) tasks ∧
        left.map Prod.snd = List.range' tasks.length left.length
  | .enrolling call o => story call journal = [.enrolling call i o]
  | .enrolled call slot => ∃ o, story call journal = [.enrolling call i o, .enrolled call slot]
  | .pending => True
  | .finished => True

/-- The call that a task is in. -/
def Control.call? : Control → Option Nat
  | .called call _ => some call
  | .numbered p => some p.call
  | .traced p => some p.call
  | .sending p _ => some p.call
  | .enrolling call _ => some call
  | .enrolled call _ => some call
  | _ => none

/-- The task that opens a call. -/
def Entry.opener? : Entry → Option Nat
  | .called _ task _ => some task
  | .enrolling _ task _ => some task
  | _ => none

/-- A call is task `i`'s. -/
def OpenedBy (journal : List Entry) (call i : Nat) : Prop :=
  ∃ x rest, story call journal = x :: rest ∧ x.opener? = some i

theorem OpenedBy.unique {journal : List Entry} {call i j : Nat} (hi : OpenedBy journal call i)
    (hj : OpenedBy journal call j) : i = j := by
  obtain ⟨x, _, hx, hxi⟩ := hi
  obtain ⟨y, _, hy, hyj⟩ := hj
  rw [hx] at hy
  obtain ⟨rfl, -⟩ := List.cons.inj hy
  rw [hxi] at hyj
  exact Option.some.inj hyj

theorem Told.openedBy {journal : List Entry} {i call : Nat} {c : Control}
    (h : Told journal i c) (hc : c.call? = some call) : OpenedBy journal call i := by
  cases c with
  | called call' e =>
      obtain rfl : call' = call := Option.some.inj hc
      exact ⟨_, _, h, rfl⟩
  | numbered p | traced p =>
      obtain rfl : p.call = call := Option.some.inj hc
      obtain ⟨rfl, e, hst⟩ := h
      exact ⟨_, _, hst, rfl⟩
  | sending p left =>
      obtain rfl : p.call = call := Option.some.inj hc
      obtain ⟨rfl, e, tasks, hst, -⟩ := h
      exact ⟨_, _, hst, rfl⟩
  | enrolling call' o =>
      obtain rfl : call' = call := Option.some.inj hc
      exact ⟨_, _, h, rfl⟩
  | enrolled call' slot =>
      obtain rfl : call' = call := Option.some.inj hc
      obtain ⟨o, hst⟩ := h
      exact ⟨_, _, hst, rfl⟩
  | _ => cases hc

theorem Told.congr {journal journal' : List Entry} {i : Nat} {c : Control}
    (hst : ∀ call, c.call? = some call → story call journal' = story call journal)
    (h : Told journal i c) : Told journal' i c := by
  cases c with
  | waiting | ready | pending | finished => exact trivial
  | called call e | enrolling call o | enrolled call slot =>
      rw [Told, hst call rfl]
      exact h
  | numbered p | traced p | sending p left =>
      rw [Told, hst p.call rfl]
      exact h

/-- An entry about a call of task `i`, or about a new one. -/
def Concerns (journal : List Entry) (i : Nat) (x : Entry) : Prop :=
  ∀ call, x.call? = some call → story call journal = [] ∨ OpenedBy journal call i

/-- What is told of a task is not affected by entries about the calls of others. -/
theorem Told.frame {journal : List Entry} {i j : Nat} {c : Control} {x : Entry}
    (h : Told journal j c) (hx : Concerns journal i x) (hij : j ≠ i) :
    Told (journal ++ [x]) j c := by
  refine h.congr fun call hcall => story_concat_of_ne journal fun hxc => ?_
  have hj := h.openedBy hcall
  -- task `j` is in this call, so it is neither new nor the call of task `i`
  rcases hx call hxc with hnil | hi
  · obtain ⟨y, rest, hst, -⟩ := hj
    rw [hnil] at hst
    cases hst
  · exact hij (hj.unique hi)

/-! ## Coherent states -/

theorem filterMap_set_of_eq {α β : Type} {f : α → Option β} {xs : List α} {i : Nat} {a b : α}
    (h : xs[i]? = some a) (hf : f b = f a) : (xs.set i b).filterMap f = xs.filterMap f := by
  induction xs generalizing i with
  | nil => rfl
  | cons x xs ih =>
      cases i with
      | zero =>
          obtain rfl : x = a := by simpa using h
          simp [List.filterMap_cons, hf]
      | succ i =>
          rw [List.set_cons_succ, List.filterMap_cons, List.filterMap_cons, ih (by simpa using h)]

/-- What the journal says about task `i`. -/
structure Consistent (journal : List Entry) (i : Nat) (t : Task) : Prop where
  /-- It is where the story of its call has come to. -/
  told : Told journal i t.control
  /-- It is a notification that has begun just if the journal says so. -/
  started : i ∈ journal.filterMap Entry.started? ↔
    t.notice?.isSome = true ∧ t.control ≠ .waiting
  /-- It is over just if the journal says so. -/
  ended : i ∈ journal.filterMap Entry.ended? ↔ t.control = .finished
  /-- If it is a notification, a publish has created it. -/
  sent : ∀ n, t.notice? = some n → .sent n.publication n.slot i ∈ journal

theorem Consistent.frame {journal : List Entry} {i j : Nat} {t : Task} {x : Entry}
    (h : Consistent journal j t) (hx : Concerns journal i x) (hij : j ≠ i)
    (hown : ∀ k, x.started? = some k ∨ x.ended? = some k → k = i) :
    Consistent (journal ++ [x]) j t where
  told := h.told.frame hx hij
  started := by
    rw [← h.started]
    have : x.started? ≠ some j := fun hs => hij (hown j (.inl hs))
    simp [this]
  ended := by
    rw [← h.ended]
    have : x.ended? ≠ some j := fun he => hij (hown j (.inr he))
    simp [this]
  sent := fun n hn => List.mem_append_left _ (h.sent n hn)

/-- A task that has begun and is not over goes on within its acts. -/
theorem Consistent.act {journal : List Entry} {i : Nat} {t t' : Task} {x : Entry}
    (h : Consistent journal i t) (hrole : t'.role = t.role) (hs : x.started? = none)
    (he : x.ended? = none) (hc : t.control ≠ .waiting ∧ t.control ≠ .finished)
    (hc' : t'.control ≠ .waiting ∧ t'.control ≠ .finished)
    (told : Told (journal ++ [x]) i t'.control) : Consistent (journal ++ [x]) i t' where
  told := told
  started := by
    rw [filterMap_concat_none journal hs, h.started, Task.notice?_congr hrole]
    exact and_congr_right fun _ => ⟨fun _ => hc'.1, fun _ => hc.1⟩
  ended := by
    rw [filterMap_concat_none journal he, h.ended]
    exact ⟨fun hf => absurd hf hc.2, fun hf => absurd hf hc'.2⟩
  sent := fun n hn => by
    rw [Task.notice?, hrole] at hn
    exact List.mem_append_left _ (h.sent n hn)

namespace State

/-- The journal and the rest of the state agree. -/
structure Coherent (s : State) : Prop where
  lawful : Lawful s.history
  /-- The next call is new. -/
  calls : ∀ call, s.calls ≤ call → story call s.history = []
  issued : s.issued = drawn s.history
  slots : s.observers.length = taken s.history
  tasks : ∀ (i : Nat) (t : Task), s.tasks[i]? = some t → Consistent s.history i t
  /-- The journal speaks of tasks that are there. -/
  known : ∀ x ∈ s.history, ∀ i, x.started? = some i ∨ x.ended? = some i →
    i < s.tasks.size
  /-- The notifications are those that the journal tells of. -/
  notices : s.notices.map (fun n => (n.publication, n.slot)) = s.history.filterMap Entry.notice?

variable {s s' : State} {i : Nat} {t t' : Task} {x : Entry}

theorem lt_size_of_getElem? (ht : s.tasks[i]? = some t) : i < s.tasks.size :=
  (Array.getElem?_eq_some_iff.mp ht).1

theorem getElem?_of_ne {j : Nat} {u : Task} (htasks : s'.tasks = s.tasks.setIfInBounds i t')
    (hji : j ≠ i) (hu : s'.tasks[j]? = some u) : s.tasks[j]? = some u := by
  rwa [htasks, Array.getElem?_setIfInBounds_ne (Ne.symm hji)] at hu

theorem getElem?_self (ht : s.tasks[i]? = some t) (htasks : s'.tasks = s.tasks.setIfInBounds i t')
    {u : Task} (hu : s'.tasks[i]? = some u) : u = t' := by
  rw [htasks, Array.getElem?_setIfInBounds_self_of_lt (lt_size_of_getElem? ht)] at hu
  exact (Option.some.inj hu).symm

/-- A task keeps its role, so its steps leave the notifications as they are. -/
theorem notices_eq (ht : s.tasks[i]? = some t) (hrole : t'.role = t.role)
    (htasks : s'.tasks = s.tasks.setIfInBounds i t') : s'.notices = s.notices := by
  unfold notices
  rw [htasks, Array.toList_setIfInBounds]
  refine filterMap_set_of_eq (by simpa using ht) ?_
  exact Task.notice?_congr hrole

/-- What is left to check of a step that makes an entry. -/
theorem Coherent.extend (h : s.Coherent) (hhist : s'.history = s.history ++ [x])
    (hallowed : Allowed s.history x) (hconc : Concerns s.history i x)
    (hcalls : s.calls ≤ s'.calls) (hnew : ∀ call, x.call? = some call → call < s'.calls)
    (hissued : s'.issued = drawn s'.history) (hslots : s'.observers.length = taken s'.history)
    (hown : ∀ k, x.started? = some k ∨ x.ended? = some k → k = i) (hi : i < s.tasks.size)
    (hsize : s.tasks.size ≤ s'.tasks.size)
    (acting : ∀ u, s'.tasks[i]? = some u → Consistent s'.history i u)
    (others : ∀ j u, j ≠ i → s'.tasks[j]? = some u →
      s.tasks[j]? = some u ∨ Consistent s'.history j u)
    (hnotices : s'.notices.map (fun n => (n.publication, n.slot)) =
      s'.history.filterMap Entry.notice?) : s'.Coherent where
  lawful := by
    rw [hhist]
    exact h.lawful.concat hallowed
  calls := fun call hcall => by
    rw [hhist]
    refine (story_concat_of_ne s.history fun hx => ?_).trans (h.calls call (by omega))
    have := hnew call hx
    omega
  issued := hissued
  slots := hslots
  tasks := fun j u hu => by
    by_cases hji : j = i
    · subst hji
      exact acting u hu
    · rcases others j u hji hu with hu | hu
      · rw [hhist]
        exact (h.tasks j u hu).frame hconc hji hown
      · exact hu
  known := fun y hy k hk => by
    rw [hhist, List.mem_append, List.mem_singleton] at hy
    rcases hy with hy | rfl
    · exact Nat.lt_of_lt_of_le (h.known y hy k hk) hsize
    · rw [hown k hk]
      exact Nat.lt_of_lt_of_le hi hsize
  notices := hnotices

/-- The same for a step that creates no task. -/
theorem Coherent.advance (h : s.Coherent) (ht : s.tasks[i]? = some t)
    (htasks : s'.tasks = s.tasks.setIfInBounds i t')
    (hjournal : s'.journal = s.journal.push x) (hrole : t'.role = t.role)
    (hallowed : Allowed s.history x) (hx : x.notice? = none)
    (hcall : ∀ call, x.call? = some call →
      call = s.calls ∧ s'.calls = s.calls + 1 ∨ t.control.call? = some call)
    (hcalls : s.calls ≤ s'.calls) (hissued : s'.issued = drawn (s.history ++ [x]))
    (hslots : s'.observers.length = taken (s.history ++ [x]))
    (hown : ∀ k, x.started? = some k ∨ x.ended? = some k → k = i)
    (acting : Consistent (s.history ++ [x]) i t') : s'.Coherent := by
  have hhist : s'.history = s.history ++ [x] := history_eq_concat hjournal
  have hsize : s'.tasks.size = s.tasks.size := by simp [htasks]
  refine h.extend hhist hallowed ?_ hcalls ?_ (hhist ▸ hissued) (hhist ▸ hslots) hown
    (lt_size_of_getElem? ht) (Nat.le_of_eq hsize.symm) ?_ ?_ ?_
  · intro call hx
    rcases hcall call hx with ⟨rfl, -⟩ | hc
    · exact .inl (h.calls _ (Nat.le_refl _))
    · exact .inr ((h.tasks i t ht).told.openedBy hc)
  · intro call hx
    rcases hcall call hx with ⟨rfl, hs⟩ | hc
    · omega
    -- a call that the task is in has a story, and calls not yet counted have none
    · by_contra hle
      obtain ⟨y, rest, hst, -⟩ := (h.tasks i t ht).told.openedBy hc
      rw [h.calls call (by omega)] at hst
      cases hst
  · intro u hu
    rw [getElem?_self ht htasks hu, hhist]
    exact acting
  · exact fun j u hji hu => .inl (getElem?_of_ne htasks hji hu)
  · rw [notices_eq ht hrole htasks, hhist, filterMap_concat_none _ hx]
    exact h.notices

/-- The same for a step that makes no entry. -/
theorem Coherent.silent (h : s.Coherent) (ht : s.tasks[i]? = some t)
    (htasks : s'.tasks = s.tasks.setIfInBounds i t') (hjournal : s'.journal = s.journal)
    (hrole : t'.role = t.role) (hcalls : s'.calls = s.calls) (hissued : s'.issued = s.issued)
    (hslots : s'.observers = s.observers) (acting : Consistent s.history i t') :
    s'.Coherent := by
  have hhist : s'.history = s.history := by simp [history, hjournal]
  constructor
  · rw [hhist]
    exact h.lawful
  · rw [hhist, hcalls]
    exact h.calls
  · rw [hhist, hissued]
    exact h.issued
  · rw [hhist, hslots]
    exact h.slots
  · intro j u hu
    rw [hhist]
    by_cases hji : j = i
    · subst hji
      rw [getElem?_self ht htasks hu]
      exact acting
    · exact h.tasks j u (getElem?_of_ne htasks hji hu)
  · rw [hhist, htasks, Array.size_setIfInBounds]
    exact h.known
  · rw [notices_eq ht hrole htasks, hhist]
    exact h.notices

/-! ## Coherence is kept -/

theorem Coherent.begun (h : s.Coherent) (notice : Notice) (ht : s.tasks[i]? = some t)
    (hc : t.control = .waiting) (hr : t.role = .delivery notice) :
    Allowed s.history (.started i) ∧
      Consistent (s.history ++ [.started i]) i
        { t with
          control := .ready
          todo := (notice.observer.react notice.publication.event).acts
          ending := (notice.observer.react notice.publication.event).ending } := by
  have hi := h.tasks i t ht
  have hn : t.notice? = some notice := by rw [Task.notice?, hr]
  have hfresh : i ∉ s.history.filterMap Entry.started? := fun hin =>
    (hi.started.mp hin).2 hc
  refine ⟨⟨hfresh, _, _, hi.sent notice hn⟩, ?_⟩
  constructor
  · exact trivial
  · simp [Entry.started?, Task.notice?, hr]
  · rw [filterMap_concat_none _ rfl, hi.ended, hc]
    simp
  · intro n hn
    exact List.mem_append_left _ (hi.sent n hn)

theorem Coherent.ended (h : s.Coherent) (ht : s.tasks[i]? = some t) (hc : t.control = .ready) :
    Allowed s.history (.ended i) ∧
      Consistent (s.history ++ [.ended i]) i { t with control := .finished } := by
  have hi := h.tasks i t ht
  have hfresh : i ∉ s.history.filterMap Entry.ended? := fun hin => by
    have := hi.ended.mp hin
    rw [hc] at this
    cases this
  refine ⟨hfresh, ?_⟩
  constructor
  · exact trivial
  · rw [filterMap_concat_none _ rfl, hi.started, hc]
    simp [Task.notice?]
  · simp [Entry.ended?]
  · intro n hn
    exact List.mem_append_left _ (hi.sent n hn)

/-- The journal does not speak of the task that is created next. -/
theorem Coherent.unknown (h : s.Coherent) :
    s.tasks.size ∉ s.history.filterMap Entry.started? ∧
      s.tasks.size ∉ s.history.filterMap Entry.ended? := by
  constructor
  · intro hin
    obtain ⟨y, hy, hk⟩ := List.mem_filterMap.mp hin
    exact Nat.lt_irrefl _ (h.known y hy _ (.inl hk))
  · intro hin
    obtain ⟨y, hy, hk⟩ := List.mem_filterMap.mp hin
    exact Nat.lt_irrefl _ (h.known y hy _ (.inr hk))

theorem notices_push {v : Task} (htasks : s'.tasks = s.tasks.push v) :
    s'.notices = s.notices ++ v.notice?.toList := by
  unfold notices
  rw [htasks, Array.toList_push, List.filterMap_append]
  cases hv : v.notice? <;> simp [hv]

theorem getElem?_push {u v : Task} {j : Nat} (hu : (s.tasks.push v)[j]? = some u) :
    s.tasks[j]? = some u ∨ j = s.tasks.size ∧ u = v := by
  rw [Array.getElem?_push] at hu
  split at hu
  next hj => exact .inr ⟨hj, (Option.some.inj hu).symm⟩
  next => exact .inl hu

theorem Coherent.join (h : s.Coherent) (place : Place) (acts : List Act) :
    (s.spawn (Task.caller place acts)).Coherent where
  lawful := h.lawful
  calls := h.calls
  issued := h.issued
  slots := h.slots
  tasks := fun j u hu => by
    rcases getElem?_push hu with hu | ⟨rfl, rfl⟩
    · exact h.tasks j u hu
    · refine ⟨trivial, ?_, ?_, ?_⟩
      · exact ⟨fun hin => absurd hin h.unknown.1, fun hn => by cases hn.1⟩
      · exact ⟨fun hin => absurd hin h.unknown.2, fun hf => by cases hf⟩
      · intro n hn
        cases hn
  known := fun x hx k hk => by
    have := h.known x hx k hk
    simp only [spawn, Array.size_push]
    omega
  notices := by
    rw [notices_push (s := s) (v := Task.caller place acts) rfl]
    exact (congrArg (List.map _) (List.append_nil _)).trans h.notices

/-- What every entry but those of beginnings and endings has in common. -/
theorem Coherent.of_act (h : s.Coherent) (ht : s.tasks[i]? = some t)
    (htasks : s'.tasks = s.tasks.setIfInBounds i t')
    (hjournal : s'.journal = s.journal.push x) (hrole : t'.role = t.role)
    (hallowed : Allowed s.history x) (hx : x.notice? = none ∧ x.started? = none ∧ x.ended? = none)
    (hcall : ∀ call, x.call? = some call →
      call = s.calls ∧ s'.calls = s.calls + 1 ∨ t.control.call? = some call)
    (hcalls : s.calls ≤ s'.calls) (hissued : s'.issued = drawn (s.history ++ [x]))
    (hslots : s'.observers.length = taken (s.history ++ [x]))
    (hc : t.control ≠ .waiting ∧ t.control ≠ .finished)
    (hc' : t'.control ≠ .waiting ∧ t'.control ≠ .finished)
    (told : Told (s.history ++ [x]) i t'.control) : s'.Coherent := by
  refine h.advance ht htasks hjournal hrole hallowed hx.1 hcall hcalls hissued hslots ?_
    ((h.tasks i t ht).act hrole hx.2.1 hx.2.2 hc hc' told)
  rintro k (hk | hk)
  · rw [hx.2.1] at hk
    cases hk
  · rw [hx.2.2] at hk
    cases hk

/-- A publish creates a notification. -/
theorem Coherent.send {p : Publication} {o : Observer} {slot : Nat}
    {left : List (Observer × Nat)} {v : Task} (h : s.Coherent) (ht : s.tasks[i]? = some t)
    (hc : t.control = .sending p ((o, slot) :: left)) (hv : v.role = .delivery ⟨p, slot, o⟩)
    (hvc : v.control = .waiting)
    (htasks : s'.tasks = (s.tasks.setIfInBounds i { t with control := .sending p left }).push v)
    (hjournal : s'.journal = s.journal.push (.sent p slot s.tasks.size))
    (hcalls : s'.calls = s.calls) (hissued : s'.issued = s.issued)
    (hslots : s'.observers = s.observers) : s'.Coherent := by
  have hi := h.tasks i t ht
  have htold := hi.told
  rw [hc] at htold
  obtain ⟨rfl, e, tasks, hst, hleft⟩ := htold
  simp only [List.map_cons, List.length_cons, List.range'_succ, List.cons.injEq] at hst hleft
  obtain ⟨rfl, hleft⟩ := hleft
  have hsize := lt_size_of_getElem? ht
  have hhist : s'.history = s.history ++ [.sent p tasks.length s.tasks.size] := by
    simp [history, hjournal]
  have hstory : story p.call s'.history = publishing e p
      ((tasks ++ [s.tasks.size]).length + left.length) (tasks ++ [s.tasks.size]) := by
    rw [hhist, story_concat_of_eq _ rfl, hst, publishing_concat, List.length_append,
      List.length_singleton, Nat.add_right_comm, Nat.add_assoc tasks.length]
  -- the sender and the new notification apart, the tasks are as before
  obtain ⟨mid, hmid⟩ : ∃ mid : State,
      mid.tasks = s.tasks.setIfInBounds p.publisher { t with control := .sending p left } :=
    ⟨{ s with tasks := _ }, rfl⟩
  have hsizes : mid.tasks.size = s.tasks.size := by simp [hmid]
  rw [← hmid] at htasks
  refine h.extend hhist ⟨e, _, tasks, hst, rfl, by omega⟩ ?_ (Nat.le_of_eq hcalls.symm) ?_ ?_ ?_
    ?_ hsize (by simp [htasks, hsizes]) ?_ ?_ ?_
  · intro call hcall
    exact .inr (hi.told.openedBy (by rw [hc]; exact hcall))
  · intro call hcall
    by_contra hle
    obtain rfl : p.call = call := Option.some.inj hcall
    rw [h.calls p.call (by omega)] at hst
    cases hst
  · rw [hhist, drawn_concat _ rfl, hissued, h.issued]
  · rw [hhist, taken_concat _ rfl, hslots, h.slots]
  · rintro k (hk | hk)
    · cases hk
    · cases hk
  · intro u hu
    rw [htasks] at hu
    rcases getElem?_push hu with hu | ⟨hu, -⟩
    · rw [getElem?_self ht hmid hu, hhist]
      refine hi.act rfl rfl rfl (by simp [hc]) (by simp) ⟨rfl, e, _, hhist ▸ hstory, ?_⟩
      rwa [List.length_append, List.length_singleton]
    · omega
  · intro j u hji hu
    rw [htasks] at hu
    rcases getElem?_push hu with hu | ⟨rfl, rfl⟩
    · exact .inl (getElem?_of_ne hmid hji hu)
    · refine .inr ?_
      rw [hhist, hsizes]
      refine ⟨by rw [hvc]; exact trivial, ?_, ?_, ?_⟩
      · rw [filterMap_concat_none _ rfl]
        exact ⟨fun hin => absurd hin h.unknown.1, fun hn => absurd hvc hn.2⟩
      · rw [filterMap_concat_none _ rfl, hvc]
        exact ⟨fun hin => absurd hin h.unknown.2, fun hf => by cases hf⟩
      · intro n hn
        rw [Task.notice?, hv] at hn
        obtain rfl := Option.some.inj hn
        simp
  · rw [notices_push htasks, notices_eq ht (by rfl) hmid, List.map_append, h.notices, hhist,
      filterMap_concat_some (f := Entry.notice?) _ rfl, Task.notice?, hv]
    rfl

theorem Coherent.of_step (h : s.Coherent) (hstep : Step i s s') : s'.Coherent := by
  -- only two kinds of entry change what is drawn or taken; the counters move with them
  have same : ∀ {x : Entry}, x.publication? = none → s.issued = drawn (s.history ++ [x]) :=
    fun hx => by rw [drawn_concat _ hx, h.issued]
  have seated : ∀ {x : Entry}, x.slot? = none →
      s.observers.length = taken (s.history ++ [x]) :=
    fun hx => by rw [taken_concat _ hx, h.slots]
  cases hstep with
  | idle => exact h
  | opened t ht hc hr =>
      have hi := h.tasks i t ht
      refine h.silent ht rfl rfl rfl rfl rfl rfl ⟨trivial, ?_, ?_, hi.sent⟩
      · rw [hi.started, hc]
        simp [Task.notice?, hr]
      · rw [hi.ended, hc]
        simp
  | started t notice reaction ht hc hr hreact =>
      subst hreact
      obtain ⟨hallowed, hact⟩ := h.begun notice ht hc hr
      refine h.advance ht rfl rfl rfl hallowed rfl ?_ (Nat.le_refl _) (same rfl) (seated rfl) ?_
        hact
      · intro call hcall
        cases hcall
      · rintro k (hk | hk)
        · exact (Option.some.inj hk).symm
        · cases hk
  | stayed t ht hc htodo hend =>
      have hi := h.tasks i t ht
      refine h.silent ht rfl rfl rfl rfl rfl rfl ⟨trivial, ?_, ?_, hi.sent⟩
      · rw [hi.started, hc]
        simp [Task.notice?]
      · rw [hi.ended, hc]
        simp
  | ended t ht hc htodo hend =>
      obtain ⟨hallowed, hact⟩ := h.ended ht hc
      refine h.advance ht rfl rfl rfl hallowed rfl ?_ (Nat.le_refl _) (same rfl) (seated rfl) ?_
        hact
      · intro call hcall
        cases hcall
      · rintro k (hk | hk)
        · cases hk
        · exact (Option.some.inj hk).symm
  | called t e todo ht hc htodo =>
      have hnil := h.calls s.calls (Nat.le_refl _)
      refine h.of_act ht rfl rfl rfl hnil ⟨rfl, rfl, rfl⟩ ?_ (Nat.le_succ _) (same rfl)
        (seated rfl) (by simp [hc]) (by simp) ?_
      · exact fun call hcall => .inl ⟨(Option.some.inj hcall).symm, rfl⟩
      · rw [Told, story_concat_of_eq _ rfl, hnil]
        rfl
  | enrolling t o todo ht hc htodo =>
      have hnil := h.calls s.calls (Nat.le_refl _)
      refine h.of_act ht rfl rfl rfl hnil ⟨rfl, rfl, rfl⟩ ?_ (Nat.le_succ _) (same rfl)
        (seated rfl) (by simp [hc]) (by simp) ?_
      · exact fun call hcall => .inl ⟨(Option.some.inj hcall).symm, rfl⟩
      · rw [Told, story_concat_of_eq _ rfl, hnil]
        rfl
  | written t line todo ht hc htodo =>
      have hi := h.tasks i t ht
      exact h.silent ht rfl rfl rfl rfl rfl rfl ⟨hi.told, hi.started, hi.ended, hi.sent⟩
  | kept t e todo ht hc htodo =>
      refine h.of_act ht rfl rfl rfl trivial ⟨rfl, rfl, rfl⟩ ?_ (Nat.le_refl _) (same rfl)
        (seated rfl) (by simp [hc]) (by simp [hc]) ?_
      · intro call hcall
        cases hcall
      · dsimp only
        rw [hc]
        exact trivial
  | numbered t call e p ht hc hp =>
      have hi := (h.tasks i t ht).told
      rw [hc] at hi
      subst hp
      have hst : story call s.history = [.called call i e] := hi
      refine h.of_act ht rfl rfl rfl ⟨?_, e, hst, rfl⟩ ⟨rfl, rfl, rfl⟩ ?_ (Nat.le_refl _) ?_
        (seated rfl) (by simp [hc]) (by simp) ⟨rfl, e, ?_⟩
      · rw [h.issued]
      · exact fun c hcall => .inr (by rw [hc]; exact hcall)
      · rw [drawn_concat_numbered, h.issued]
      · rw [story_concat_of_eq _ rfl]
        exact congrArg (· ++ [_]) hst
  | traced t p ht hc =>
      have hi := h.tasks i t ht
      refine h.silent ht rfl rfl rfl rfl rfl rfl ⟨?_, ?_, ?_, hi.sent⟩
      · have := hi.told
        rwa [hc] at this
      · rw [hi.started, hc]
        simp [Task.notice?]
      · rw [hi.ended, hc]
        simp
  | listed t p ht hc =>
      have hi := (h.tasks i t ht).told
      rw [hc] at hi
      obtain ⟨rfl, e, hst⟩ := hi
      refine h.of_act ht rfl rfl rfl ⟨h.slots, e, hst⟩ ⟨rfl, rfl, rfl⟩ ?_ (Nat.le_refl _)
        (same rfl) (seated rfl) (by simp [hc]) (by simp) ⟨rfl, e, [], ?_, ?_⟩
      · exact fun c hcall => .inr (by rw [hc]; exact hcall)
      · rw [story_concat_of_eq _ rfl, hst, List.length_zipIdx, List.length_nil, Nat.zero_add]
        rfl
      · rw [List.length_zipIdx, List.length_nil]
        exact List.zipIdx_map_snd 0 s.observers
  | returned t p ht hc =>
      have hi := (h.tasks i t ht).told
      rw [hc] at hi
      obtain ⟨rfl, e, tasks, hst, -⟩ := hi
      refine h.of_act ht rfl rfl rfl ⟨e, tasks, hst⟩ ⟨rfl, rfl, rfl⟩ ?_ (Nat.le_refl _)
        (same rfl) (seated rfl) (by simp [hc]) (by simp) trivial
      exact fun c hcall => .inr (by rw [hc]; exact hcall)
  | enrolled t call o ht hc =>
      have hi := (h.tasks i t ht).told
      rw [hc] at hi
      have hst : story call s.history = [.enrolling call i o] := hi
      refine h.of_act ht rfl rfl rfl ⟨h.slots, i, o, hst⟩ ⟨rfl, rfl, rfl⟩ ?_ (Nat.le_refl _)
        (same rfl) ?_ (by simp [hc]) (by simp) ⟨o, ?_⟩
      · exact fun c hcall => .inr (by rw [hc]; exact hcall)
      · rw [taken_concat_enrolled, List.length_append, h.slots, List.length_singleton]
      · rw [story_concat_of_eq _ rfl, hst]
        rfl
  | registered t call slot ht hc =>
      have hi := (h.tasks i t ht).told
      rw [hc] at hi
      obtain ⟨o, hst⟩ := hi
      refine h.of_act ht rfl rfl rfl ⟨i, o, hst⟩ ⟨rfl, rfl, rfl⟩ ?_ (Nat.le_refl _)
        (same rfl) (seated rfl) (by simp [hc]) (by simp) trivial
      exact fun c hcall => .inr (by rw [hc]; exact hcall)
  | sent t p o slot left ht hc => exact h.send ht hc rfl rfl rfl rfl rfl rfl rfl

theorem coherent_new (config : Config) (home : Place) : (new config home).Coherent where
  lawful := lawful_nil
  calls := fun _ _ => rfl
  issued := rfl
  slots := rfl
  tasks := fun i t ht => by
    rw [new, Array.getElem?_empty] at ht
    cases ht
  known := fun x hx => by cases hx
  notices := rfl

/-- **Coherence.** Whatever happens around a bus, its state and its journal agree. -/
theorem coherent_play (config : Config) (home : Place) (moves : List Move) :
    ((new config home).play moves).Coherent :=
  play_induction (coherent_new config home) (fun _ place acts h => h.join place acts)
    (fun s i h => h.of_step (step_spec i s)) moves

end State

end FlowEvents.Bus
