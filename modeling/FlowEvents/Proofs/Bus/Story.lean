import FlowEvents.Bus.State
import Mathlib.Data.List.Induction
import Mathlib.Data.List.Nodup

/-! # What a journal may say

A journal is read call by call.  The *story* of a call is what the journal says about it, in order;
between any two of its entries those of other calls may stand.  `Allowed` lists, for each kind of
entry, what must have been said before it, and a journal is *lawful* if each of its entries was
allowed when it was made.

Everything about numbers, slots and notifications that does not depend on how the tasks are
interleaved follows from lawfulness alone, without a look at the tasks.
-/

namespace FlowEvents.Bus

namespace Entry

/-- The call of the bus that an entry is about. -/
def call? : Entry → Option Nat
  | .called call _ _ => some call
  | .numbered p => some p.call
  | .listed p _ => some p.call
  | .sent p _ _ => some p.call
  | .returned p => some p.call
  | .enrolling call _ _ => some call
  | .enrolled call _ => some call
  | .registered call _ => some call
  | .started _ => none
  | .kept _ _ => none
  | .ended _ => none

/-- The slot that an entry takes for an observer. -/
def slot? : Entry → Option Nat
  | .enrolled _ slot => some slot
  | _ => none

/-- The publish and the slot of a notification that an entry creates. -/
def notice? : Entry → Option (Publication × Nat)
  | .sent p slot _ => some (p, slot)
  | _ => none

/-- The notification that an entry begins. -/
def started? : Entry → Option Nat
  | .started task => some task
  | _ => none

/-- The task that an entry ends. -/
def ended? : Entry → Option Nat
  | .ended task => some task
  | _ => none

end Entry

/-! ## Stories -/

/-- What a journal says about a call. -/
def story (call : Nat) (journal : List Entry) : List Entry :=
  journal.filter fun x => x.call? == some call

/-- The entries of the notifications that a publish has created, one for each slot from the first
on. -/
def sendings (p : Publication) (tasks : List Nat) : List Entry :=
  tasks.mapIdx fun slot task => .sent p slot task

/-- The story of a publish that has listed its observers. -/
def publishing (e : Event) (p : Publication) (count : Nat) (tasks : List Nat) : List Entry :=
  .called p.call p.publisher e :: .numbered p :: .listed p count :: sendings p tasks

/-- How many publishes a journal has numbered. -/
def drawn (journal : List Entry) : Nat :=
  (journal.filterMap Entry.publication?).length

/-- How many slots a journal has given away. -/
def taken (journal : List Entry) : Nat :=
  (journal.filterMap Entry.slot?).length

/-- The slots of the notifications that a publish has created, in the order of creation. -/
def slotsSent (call : Nat) (journal : List Entry) : List Nat :=
  (journal.filterMap Entry.notice?).filterMap fun n => if n.1.call = call then some n.2 else none

theorem filterMap_concat_none {α β : Type} {f : α → Option β} {x : α} (xs : List α)
    (h : f x = none) : (xs ++ [x]).filterMap f = xs.filterMap f := by
  simp [h]

theorem filterMap_concat_some {α β : Type} {f : α → Option β} {x : α} {y : β} (xs : List α)
    (h : f x = some y) : (xs ++ [x]).filterMap f = xs.filterMap f ++ [y] := by
  simp [h]

theorem drawn_concat {x : Entry} (journal : List Entry) (h : x.publication? = none) :
    drawn (journal ++ [x]) = drawn journal := by
  rw [drawn, filterMap_concat_none journal h, drawn]

theorem drawn_concat_numbered (journal : List Entry) (p : Publication) :
    drawn (journal ++ [.numbered p]) = drawn journal + 1 := by
  rw [drawn, filterMap_concat_some (f := Entry.publication?) journal rfl, List.length_append,
    List.length_singleton, drawn]

theorem taken_concat {x : Entry} (journal : List Entry) (h : x.slot? = none) :
    taken (journal ++ [x]) = taken journal := by
  rw [taken, filterMap_concat_none journal h, taken]

theorem taken_concat_enrolled (journal : List Entry) (call slot : Nat) :
    taken (journal ++ [.enrolled call slot]) = taken journal + 1 := by
  rw [taken, filterMap_concat_some (f := Entry.slot?) journal rfl, List.length_append,
    List.length_singleton, taken]

theorem mem_story {call : Nat} {journal : List Entry} {x : Entry} :
    x ∈ story call journal ↔ x ∈ journal ∧ x.call? = some call := by
  simp [story]

theorem story_concat_of_eq {call : Nat} {x : Entry} (journal : List Entry)
    (h : x.call? = some call) : story call (journal ++ [x]) = story call journal ++ [x] := by
  simp [story, List.filter_append, h]

theorem story_concat_of_ne {call : Nat} {x : Entry} (journal : List Entry)
    (h : x.call? ≠ some call) : story call (journal ++ [x]) = story call journal := by
  simp [story, List.filter_append, h]

theorem sendings_concat (p : Publication) (tasks : List Nat) (task : Nat) :
    sendings p (tasks ++ [task]) = sendings p tasks ++ [.sent p tasks.length task] := by
  simp [sendings, List.mapIdx_concat]

theorem publishing_concat (e : Event) (p : Publication) (count : Nat) (tasks : List Nat)
    (task : Nat) : publishing e p count (tasks ++ [task]) =
      publishing e p count tasks ++ [.sent p tasks.length task] := by
  simp [publishing, sendings_concat]

/-- A publish creates notifications and nothing else. -/
theorem eq_sent_of_mem_sendings {p : Publication} {tasks : List Nat} {x : Entry}
    (h : x ∈ sendings p tasks) : ∃ slot task, x = .sent p slot task := by
  obtain ⟨slot, hslot, rfl⟩ := List.mem_mapIdx.mp h
  exact ⟨slot, _, rfl⟩

theorem slotsSent_story (call : Nat) (journal : List Entry) :
    slotsSent call (story call journal) = slotsSent call journal := by
  unfold slotsSent story
  rw [List.filterMap_filterMap, List.filterMap_filterMap, List.filterMap_filter]
  apply List.filterMap_congr
  intro x _
  cases x with
  | sent p slot task => by_cases h : p.call = call <;> simp [Entry.call?, Entry.notice?, h]
  | _ => simp [Entry.notice?]

theorem slotsSent_append (call : Nat) (front back : List Entry) :
    slotsSent call (front ++ back) = slotsSent call front ++ slotsSent call back := by
  simp [slotsSent, List.filterMap_append]

theorem slotsSent_sendings (p : Publication) (tasks : List Nat) :
    slotsSent p.call (sendings p tasks) = List.range tasks.length := by
  induction tasks using List.reverseRecOn with
  | nil => rfl
  | append_singleton tasks task ih =>
      rw [sendings_concat, slotsSent_append, ih, List.length_append, List.length_singleton,
        List.range_succ]
      simp [slotsSent, Entry.notice?]

theorem slotsSent_publishing (e : Event) (p : Publication) (count : Nat) (tasks : List Nat) :
    slotsSent p.call (publishing e p count tasks) = List.range tasks.length := by
  rw [← slotsSent_sendings p tasks]
  rfl

/-! ## Lawful journals -/

/-- What must have been said before an entry is made. -/
def Allowed (past : List Entry) : Entry → Prop
  | .called call _ _ => story call past = []
  | .numbered p =>
    p.number = drawn past + 1 ∧
      ∃ e, story p.call past = [.called p.call p.publisher e] ∧
        p.event = { e with id := UInt64.ofNat p.number }
  | .listed p count =>
    count = taken past ∧ ∃ e, story p.call past = [.called p.call p.publisher e, .numbered p]
  | .sent p slot _ =>
    ∃ e count tasks, story p.call past = publishing e p count tasks ∧ slot = tasks.length ∧
      slot < count
  | .returned p => ∃ e tasks, story p.call past = publishing e p tasks.length tasks
  | .enrolling call _ _ => story call past = []
  | .enrolled call slot =>
    slot = taken past ∧ ∃ i o, story call past = [.enrolling call i o]
  | .registered call slot =>
    ∃ i o, story call past = [.enrolling call i o, .enrolled call slot]
  | .started task => task ∉ past.filterMap Entry.started? ∧ ∃ p slot, .sent p slot task ∈ past
  | .kept _ _ => True
  | .ended task => task ∉ past.filterMap Entry.ended?

/-- Every entry was allowed when it was made. -/
def Lawful (journal : List Entry) : Prop :=
  ∀ (n : Nat) (x : Entry), journal[n]? = some x → Allowed (journal.take n) x

theorem lawful_nil : Lawful [] := by
  intro n x h
  simp at h

theorem Lawful.concat {journal : List Entry} {x : Entry} (h : Lawful journal)
    (hx : Allowed journal x) : Lawful (journal ++ [x]) := by
  intro n y hy
  rcases Nat.lt_trichotomy n journal.length with hn | rfl | hn
  · rw [List.getElem?_append_left hn] at hy
    rw [List.take_append_of_le_length (Nat.le_of_lt hn)]
    exact h n y hy
  · simp only [List.getElem?_concat_length, Option.some.injEq] at hy
    subst hy
    rwa [List.take_append_of_le_length (Nat.le_refl _), List.take_length]
  · rw [List.getElem?_eq_none (by simp; omega)] at hy
    cases hy

theorem Lawful.take {journal : List Entry} (h : Lawful journal) (n : Nat) :
    Lawful (journal.take n) := by
  intro m x hx
  have hm : m < n := by
    by_contra hle
    rw [List.getElem?_take_eq_none (Nat.le_of_not_lt hle)] at hx
    cases hx
  rw [List.getElem?_take_of_lt hm] at hx
  rw [List.take_take, Nat.min_eq_left (Nat.le_of_lt hm)]
  exact h m x hx

theorem Lawful.of_concat {journal : List Entry} {x : Entry} (h : Lawful (journal ++ [x])) :
    Lawful journal ∧ Allowed journal x := by
  constructor
  · have := h.take journal.length
    rwa [List.take_append_of_le_length (Nat.le_refl _), List.take_length] at this
  · have := h journal.length x List.getElem?_concat_length
    rwa [List.take_append_of_le_length (Nat.le_refl _), List.take_length] at this

/-! ## How far a call can have come -/

/-- The stories that calls can have. -/
inductive Shape (call : Nat) : List Entry → Prop
  | unknown : Shape call []
  | called (i : Nat) (e : Event) : Shape call [.called call i e]
  | numbered (e : Event) (p : Publication) (hc : p.call = call)
      (he : p.event = { e with id := UInt64.ofNat p.number }) :
      Shape call [.called p.call p.publisher e, .numbered p]
  | sending (e : Event) (p : Publication) (count : Nat) (tasks : List Nat) (hc : p.call = call)
      (he : p.event = { e with id := UInt64.ofNat p.number }) (hn : tasks.length ≤ count) :
      Shape call (publishing e p count tasks)
  | returned (e : Event) (p : Publication) (tasks : List Nat) (hc : p.call = call)
      (he : p.event = { e with id := UInt64.ofNat p.number }) :
      Shape call (publishing e p tasks.length tasks ++ [.returned p])
  | enrolling (i : Nat) (o : Observer) : Shape call [.enrolling call i o]
  | enrolled (i : Nat) (o : Observer) (slot : Nat) :
      Shape call [.enrolling call i o, .enrolled call slot]
  | registered (i : Nat) (o : Observer) (slot : Nat) :
      Shape call [.enrolling call i o, .enrolled call slot, .registered call slot]

theorem mem_publishing {e : Event} {p : Publication} {count : Nat} {tasks : List Nat}
    {x : Entry} (h : x ∈ publishing e p count tasks) :
    x = .called p.call p.publisher e ∨ x = .numbered p ∨ x = .listed p count ∨
      ∃ slot task, x = .sent p slot task := by
  simp only [publishing, List.mem_cons] at h
  exact h.imp id (Or.imp id (Or.imp id eq_sent_of_mem_sendings))

theorem event_eq_of_mem_publishing {e e' : Event} {p q : Publication} (count : Nat)
    (tasks : List Nat) (he : q.event = { e' with id := UInt64.ofNat q.number })
    (hp : .numbered p ∈ publishing e' q count tasks)
    (hc : .called p.call p.publisher e ∈ publishing e' q count tasks) :
    p.event = { e with id := UInt64.ofNat p.number } := by
  obtain rfl : p = q := by
    rcases mem_publishing hp with h | h | h | ⟨_, _, h⟩
    all_goals cases h
    rfl
  obtain rfl : e = e' := by
    rcases mem_publishing hc with h | h | h | ⟨_, _, h⟩
    · exact (Entry.called.inj h).2.2
    all_goals cases h
  exact he

/-- The event of a numbered publish is the one that was given, but for its id. -/
theorem Shape.event_eq {call : Nat} {entries : List Entry} {p : Publication} {e : Event}
    (h : Shape call entries) (hp : .numbered p ∈ entries)
    (hc : .called p.call p.publisher e ∈ entries) :
    p.event = { e with id := UInt64.ofNat p.number } := by
  cases h with
  | unknown | called | enrolling | enrolled | registered => simp at hp
  | numbered e' q _ he =>
      exact event_eq_of_mem_publishing 0 [] he (List.mem_append_left [_] hp)
        (List.mem_append_left [_] hc)
  | sending e' q count tasks _ he => exact event_eq_of_mem_publishing count tasks he hp hc
  | returned e' q tasks _ he =>
      refine event_eq_of_mem_publishing tasks.length tasks he ?_ ?_
      · simpa using hp
      · simpa using hc

theorem Lawful.shape {journal : List Entry} (h : Lawful journal) (call : Nat) :
    Shape call (story call journal) := by
  induction journal using List.reverseRecOn with
  | nil => exact .unknown
  | append_singleton journal x ih =>
      obtain ⟨hj, hx⟩ := h.of_concat
      have hs := ih hj
      -- an entry about the call takes its story from one shape to the next; others leave it alone
      by_cases hc : x.call? = some call
      · rw [story_concat_of_eq journal hc]
        cases x with
        | called c i e =>
            obtain rfl : c = call := Option.some.inj hc
            rw [show story c journal = [] from hx]
            exact .called i e
        | numbered p =>
            obtain rfl : p.call = call := Option.some.inj hc
            obtain ⟨-, e, hst, he⟩ := hx
            rw [hst]
            exact .numbered e p rfl he
        | listed p count =>
            obtain rfl : p.call = call := Option.some.inj hc
            obtain ⟨-, e, hst⟩ := hx
            rw [hst] at hs ⊢
            exact .sending e p count [] rfl (hs.event_eq (by simp) (by simp)) (Nat.zero_le _)
        | sent p slot task =>
            obtain rfl : p.call = call := Option.some.inj hc
            obtain ⟨e, count, tasks, hst, rfl, hlt⟩ := hx
            rw [hst] at hs ⊢
            rw [← publishing_concat]
            refine .sending e p count _ rfl (hs.event_eq ?_ ?_) ?_
            · simp [publishing]
            · simp [publishing]
            · simpa [Nat.succ_le_iff] using hlt
        | returned p =>
            obtain rfl : p.call = call := Option.some.inj hc
            obtain ⟨e, tasks, hst⟩ := hx
            rw [hst] at hs ⊢
            refine .returned e p tasks rfl (hs.event_eq ?_ ?_)
            · simp [publishing]
            · simp [publishing]
        | enrolling c i o =>
            obtain rfl : c = call := Option.some.inj hc
            rw [show story c journal = [] from hx]
            exact .enrolling i o
        | enrolled c slot =>
            obtain rfl : c = call := Option.some.inj hc
            obtain ⟨-, i, o, hst⟩ := hx
            rw [hst]
            exact .enrolled i o slot
        | registered c slot =>
            obtain rfl : c = call := Option.some.inj hc
            obtain ⟨i, o, hst⟩ := hx
            rw [hst]
            exact .registered i o slot
        | started | kept | ended => cases hc
      · rwa [story_concat_of_ne journal hc]

end FlowEvents.Bus
