import FlowEvents.Proofs.Bus.Story

/-! # What a lawful journal tells

The order of a journal's entries is the order in which things happened.  Numbers and slots ascend
along it, a call is opened once and before anything else is said about it, and the slots that a
publish notifies are the first ones, as many as had been taken when it listed them.

The arguments are about positions.  What an entry says of the past is a statement about the journal
*up to its position*, so two entries are compared by comparing how much had been said at either.
-/

namespace FlowEvents.Bus

/-- One entry was made before another. -/
def Precedes (journal : List Entry) (x y : Entry) : Prop :=
  ∃ m n : Nat, m < n ∧ journal[m]? = some x ∧ journal[n]? = some y

/-! ## Positions -/

theorem mem_take_iff {α : Type} {xs : List α} {n : Nat} {x : α} :
    x ∈ xs.take n ↔ ∃ m < n, xs[m]? = some x := by
  rw [List.mem_iff_getElem?]
  constructor
  · rintro ⟨m, hm⟩
    by_cases hlt : m < n
    · rw [List.getElem?_take_of_lt hlt] at hm
      exact ⟨m, hlt, hm⟩
    · rw [List.getElem?_take_eq_none (Nat.le_of_not_lt hlt)] at hm
      cases hm
  · rintro ⟨m, hlt, hm⟩
    exact ⟨m, by rwa [List.getElem?_take_of_lt hlt]⟩

theorem length_filterMap_take_le {α β : Type} (f : α → Option β) (xs : List α) {m n : Nat}
    (h : m ≤ n) : ((xs.take m).filterMap f).length ≤ ((xs.take n).filterMap f).length :=
  ((List.take_sublist_take_left h).filterMap f).length_le

theorem length_filterMap_take_lt {α β : Type} (f : α → Option β) {xs : List α} {m n : Nat}
    {x : α} {y : β} (hx : xs[m]? = some x) (hf : f x = some y) (h : m < n) :
    ((xs.take m).filterMap f).length < ((xs.take n).filterMap f).length := by
  have hstep : ((xs.take (m + 1)).filterMap f).length = ((xs.take m).filterMap f).length + 1 := by
    simp [List.take_add_one, hx, hf]
  have hle := length_filterMap_take_le f xs (show m + 1 ≤ n from h)
  omega

variable {journal : List Entry}

theorem Precedes.mem_left {x y : Entry} (h : Precedes journal x y) : x ∈ journal := by
  obtain ⟨m, n, -, hm, -⟩ := h
  exact List.mem_of_getElem? hm

/-- What does not stand in the last part is preceded by what it was preceded by before. -/
theorem Precedes.of_append {front back : List Entry} {x y : Entry}
    (h : Precedes (front ++ back) x y) (hy : y ∉ back) : Precedes front x y := by
  obtain ⟨m, n, hmn, hm, hn⟩ := h
  by_cases hlt : n < front.length
  · rw [List.getElem?_append_left hlt] at hn
    rw [List.getElem?_append_left (Nat.lt_trans hmn hlt)] at hm
    exact ⟨m, n, hmn, hm, hn⟩
  · rw [List.getElem?_append_right (Nat.le_of_not_lt hlt)] at hn
    exact absurd (List.mem_of_getElem? hn) hy

theorem drawn_take_lt {p : Publication} {m n : Nat} (hx : journal[m]? = some (.numbered p))
    (h : m < n) : drawn (journal.take m) < drawn (journal.take n) :=
  length_filterMap_take_lt Entry.publication? hx rfl h

theorem taken_take_lt {call slot m n : Nat} (hx : journal[m]? = some (.enrolled call slot))
    (h : m < n) : taken (journal.take m) < taken (journal.take n) :=
  length_filterMap_take_lt Entry.slot? hx rfl h

theorem taken_take_le {m n : Nat} (h : m ≤ n) :
    taken (journal.take m) ≤ taken (journal.take n) :=
  length_filterMap_take_le Entry.slot? journal h

/-! ## Numbers and slots ascend -/

/-- What every entry counts on from the past is counted without a gap. -/
theorem Lawful.filterMap_eq_range' (h : Lawful journal) (f : Entry → Option Nat) (start : Nat)
    (next : ∀ past x y, Allowed past x → f x = some y → y = start + (past.filterMap f).length) :
    journal.filterMap f = List.range' start (journal.filterMap f).length := by
  induction journal using List.reverseRecOn with
  | nil => rfl
  | append_singleton journal x ih =>
      obtain ⟨hj, hx⟩ := h.of_concat
      have ih := ih hj
      cases hf : f x with
      | none => rwa [filterMap_concat_none journal hf]
      | some y =>
          rw [filterMap_concat_some journal hf, List.length_append, List.length_singleton,
            List.range'_concat, ← ih, next journal x y hx hf, Nat.one_mul]

/-- What is new whenever it is said is said once. -/
theorem Lawful.filterMap_nodup {β : Type} (h : Lawful journal) (f : Entry → Option β)
    (fresh : ∀ past x y, Allowed past x → f x = some y → y ∉ past.filterMap f) :
    (journal.filterMap f).Nodup := by
  induction journal using List.reverseRecOn with
  | nil => exact List.nodup_nil
  | append_singleton journal x ih =>
      obtain ⟨hj, hx⟩ := h.of_concat
      have ih := ih hj
      cases hf : f x with
      | none => rwa [filterMap_concat_none journal hf]
      | some y =>
          rw [filterMap_concat_some journal hf, ← List.concat_eq_append]
          exact ih.concat (fresh journal x y hx hf)

theorem map_publication? {β : Type} (f : Publication → β) (journal : List Entry) :
    (journal.filterMap Entry.publication?).map f =
      journal.filterMap fun x => x.publication?.map f :=
  List.map_filterMap

theorem Entry.eq_numbered {x : Entry} {p : Publication} (h : x.publication? = some p) :
    x = .numbered p := by
  cases x with
  | numbered q => rw [Option.some.inj h]
  | _ => cases h

theorem Lawful.numbers (h : Lawful journal) :
    (journal.filterMap Entry.publication?).map (·.number) = List.range' 1 (drawn journal) := by
  have hlen : ∀ past : List Entry,
      (past.filterMap fun x => x.publication?.map (·.number)).length = drawn past := by
    intro past
    rw [← map_publication?, List.length_map]
    rfl
  rw [map_publication?, ← hlen]
  apply h.filterMap_eq_range' _ 1
  intro past x y hx hf
  obtain ⟨p, hp, rfl⟩ := Option.map_eq_some_iff.mp hf
  obtain rfl := Entry.eq_numbered hp
  rw [hlen, Nat.add_comm]
  exact hx.1

theorem Lawful.slots (h : Lawful journal) :
    journal.filterMap Entry.slot? = List.range (taken journal) := by
  rw [List.range_eq_range']
  apply h.filterMap_eq_range' Entry.slot? 0
  intro past x y hx hf
  cases x with
  | enrolled call slot =>
      obtain rfl : slot = y := Option.some.inj hf
      rw [Nat.zero_add]
      exact hx.1
  | _ => cases hf

theorem Lawful.calls_nodup (h : Lawful journal) :
    ((journal.filterMap Entry.publication?).map (·.call)).Nodup := by
  rw [map_publication?]
  apply h.filterMap_nodup _
  intro past x c hx hf hmem
  obtain ⟨p, hp, rfl⟩ := Option.map_eq_some_iff.mp hf
  obtain rfl := Entry.eq_numbered hp
  -- a publish numbered before would stand in the story, which holds the call only
  obtain ⟨y, hy, hyc⟩ := List.mem_filterMap.mp hmem
  obtain ⟨q, hq, hcall⟩ := Option.map_eq_some_iff.mp hyc
  obtain rfl := Entry.eq_numbered hq
  obtain ⟨-, e, hst, -⟩ := hx
  have hst' : Entry.numbered q ∈ story p.call past :=
    mem_story.mpr ⟨hy, congrArg some hcall⟩
  rw [hst] at hst'
  simp at hst'

theorem Lawful.started_nodup (h : Lawful journal) :
    (journal.filterMap Entry.started?).Nodup := by
  apply h.filterMap_nodup _
  intro past x i hx hf
  cases x with
  | started task =>
      obtain rfl : task = i := Option.some.inj hf
      exact hx.1
  | _ => cases hf

theorem Lawful.ended_nodup (h : Lawful journal) : (journal.filterMap Entry.ended?).Nodup := by
  apply h.filterMap_nodup _
  intro past x i hx hf
  cases x with
  | ended task =>
      obtain rfl : task = i := Option.some.inj hf
      exact hx
  | _ => cases hf

theorem Lawful.notices_nodup (h : Lawful journal) :
    (journal.filterMap Entry.notice?).Nodup := by
  apply h.filterMap_nodup _
  intro past x n hx hf hmem
  cases x with
  | sent p slot task =>
      obtain rfl : (p, slot) = n := Option.some.inj hf
      obtain ⟨e, count, tasks, hst, rfl, -⟩ := hx
      -- the slots notified before are the ones below
      obtain ⟨y, hy, hyn⟩ := List.mem_filterMap.mp hmem
      have hslot : tasks.length ∈ slotsSent p.call past := by
        refine List.mem_filterMap.mpr ⟨(p, tasks.length), List.mem_filterMap.mpr ⟨y, hy, hyn⟩, ?_⟩
        simp
      rw [← slotsSent_story, hst, slotsSent_publishing, List.mem_range] at hslot
      exact Nat.lt_irrefl _ hslot
  | _ => cases hf

/-! ## What comes first in a call -/

/-- The call that an entry opens. -/
def Entry.opens? : Entry → Option Nat
  | .called call _ _ => some call
  | .enrolling call _ _ => some call
  | _ => none

theorem Entry.call?_of_opens? {x : Entry} {call : Nat} (h : x.opens? = some call) :
    x.call? = some call := by
  cases x with
  | called c i e => exact h
  | enrolling c i o => exact h
  | _ => cases h

/-- Nothing is said about a call before the entry that opens it. -/
theorem Lawful.opening_first (h : Lawful journal) {m n call : Nat} {x y : Entry}
    (hx : journal[n]? = some x) (hopen : x.opens? = some call) (hy : journal[m]? = some y)
    (hcall : y.call? = some call) : n ≤ m := by
  by_contra hlt
  have hmem : y ∈ story call (journal.take n) :=
    mem_story.mpr ⟨mem_take_iff.mpr ⟨m, Nat.lt_of_not_le hlt, hy⟩, hcall⟩
  have hnil : story call (journal.take n) = [] := by
    have hallowed := h n x hx
    cases x with
    | called c i e =>
        obtain rfl : c = call := Option.some.inj hopen
        exact hallowed
    | enrolling c i o =>
        obtain rfl : c = call := Option.some.inj hopen
        exact hallowed
    | _ => cases hopen
  rw [hnil] at hmem
  cases hmem

/-- A call is opened once. -/
theorem Lawful.opening_unique (h : Lawful journal) {m n call : Nat} {x y : Entry}
    (hx : journal[m]? = some x) (hxc : x.opens? = some call) (hy : journal[n]? = some y)
    (hyc : y.opens? = some call) : m = n :=
  Nat.le_antisymm (h.opening_first hx hxc hy (Entry.call?_of_opens? hyc))
    (h.opening_first hy hyc hx (Entry.call?_of_opens? hxc))

/-- What stands in the story that an entry needs was said before. -/
theorem exists_before_of_mem_story {call n : Nat} {x : Entry}
    (h : x ∈ story call (journal.take n)) : ∃ m < n, journal[m]? = some x :=
  mem_take_iff.mp (mem_story.mp h).1

theorem Lawful.called_before_numbered (h : Lawful journal) {n : Nat} {p : Publication}
    (hn : journal[n]? = some (.numbered p)) :
    ∃ e, p.event = { e with id := UInt64.ofNat p.number } ∧
      ∃ m < n, journal[m]? = some (.called p.call p.publisher e) := by
  obtain ⟨-, e, hst, he⟩ := h n _ hn
  exact ⟨e, he, exists_before_of_mem_story (by rw [hst]; exact List.mem_singleton_self _)⟩

theorem Lawful.numbered_before_returned (h : Lawful journal) {n : Nat} {p : Publication}
    (hn : journal[n]? = some (.returned p)) : ∃ m < n, journal[m]? = some (.numbered p) := by
  obtain ⟨e, tasks, hst⟩ := h n _ hn
  exact exists_before_of_mem_story (by rw [hst]; simp [publishing])

theorem Lawful.enrolled_before_registered (h : Lawful journal) {n call slot : Nat}
    (hn : journal[n]? = some (.registered call slot)) :
    ∃ m < n, journal[m]? = some (.enrolled call slot) := by
  obtain ⟨i, o, hst⟩ := h n _ hn
  exact exists_before_of_mem_story (by rw [hst]; simp)

/-- A publish that returned before another was called has the smaller number. -/
theorem Lawful.number_lt (h : Lawful journal) {p q : Publication} {i : Nat} {e : Event}
    (hpq : Precedes journal (.returned p) (.called q.call i e))
    (hq : .numbered q ∈ journal) : p.number < q.number := by
  obtain ⟨k, l, hkl, hret, hcall⟩ := hpq
  obtain ⟨m, hmk, hm⟩ := h.numbered_before_returned hret
  obtain ⟨n, hn⟩ := List.mem_iff_getElem?.mp hq
  have hln : l ≤ n := h.opening_first hcall rfl hn rfl
  have hp : p.number = drawn (journal.take m) + 1 := (h m _ hm).1
  have hq : q.number = drawn (journal.take n) + 1 := (h n _ hn).1
  -- `p` was numbered before it returned, `q` only after its call; numbers count what came before
  have hlt := drawn_take_lt hm (show m < n by omega)
  omega

/-! ## Which slots a publish notifies -/

theorem Lawful.story_of_returned (h : Lawful journal) {p : Publication}
    (hp : .returned p ∈ journal) :
    ∃ e tasks, story p.call journal = publishing e p tasks.length tasks ++ [.returned p] := by
  have hmem : Entry.returned p ∈ story p.call journal := mem_story.mpr ⟨hp, rfl⟩
  have absent : ∀ {e : Event} {q : Publication} {count : Nat} {tasks : List Nat},
      Entry.returned p ∉ publishing e q count tasks := by
    intro e q count tasks hin
    rcases mem_publishing hin with h | h | h | ⟨_, _, h⟩
    all_goals cases h
  -- of all shapes a story can have, one holds a return
  generalize hst : story p.call journal = entries at hmem
  have hshape := h.shape p.call
  rw [hst] at hshape
  cases hshape with
  | returned e q tasks =>
      rcases List.mem_append.mp hmem with hin | hin
      · exact absurd hin absent
      · obtain rfl : p = q := Entry.returned.inj (List.mem_singleton.mp hin)
        exact ⟨e, tasks, rfl⟩
  | sending => exact absurd hmem absent
  | _ => simp at hmem

/-- A publish notifies the first slots, each once and in their order. -/
theorem Lawful.slotsSent_eq_range (h : Lawful journal) (call : Nat) :
    ∃ m ≤ taken journal, slotsSent call journal = List.range m := by
  have bound : ∀ {p : Publication} {count : Nat}, .listed p count ∈ journal →
      count ≤ taken journal := by
    intro p count hin
    obtain ⟨n, hn⟩ := List.mem_iff_getElem?.mp hin
    obtain rfl : count = taken (journal.take n) := (h n _ hn).1
    exact ((List.take_sublist n journal).filterMap Entry.slot?).length_le
  rw [← slotsSent_story]
  generalize hst : story call journal = entries
  have hshape := h.shape call
  rw [hst] at hshape
  have hsub : ∀ x ∈ entries, x ∈ journal := fun x hx => (mem_story.mp (hst ▸ hx)).1
  cases hshape with
  | sending e p count tasks hc he hn =>
      subst hc
      have hlist := bound (hsub (.listed p count) (by simp [publishing]))
      exact ⟨tasks.length, Nat.le_trans hn hlist, slotsSent_publishing e p count tasks⟩
  | returned e p tasks hc he =>
      subst hc
      have hlist := bound (hsub (.listed p tasks.length) (by simp [publishing]))
      refine ⟨tasks.length, hlist, ?_⟩
      rw [slotsSent_append, slotsSent_publishing]
      simp [slotsSent, Entry.notice?]
  | _ => exact ⟨0, Nat.zero_le _, rfl⟩

/-- A publish lists the slots that are taken by then, and does so before it returns. -/
theorem Lawful.listed_before_returned (h : Lawful journal) {n : Nat} {p : Publication}
    (hn : journal[n]? = some (.returned p)) :
    ∃ m < n, journal[m]? = some (.listed p (taken (journal.take m))) := by
  obtain ⟨e, tasks, hst⟩ := h n _ hn
  have hmem : Entry.listed p tasks.length ∈ story p.call (journal.take n) := by
    rw [hst]
    simp [publishing]
  obtain ⟨m, hmn, hm⟩ := exists_before_of_mem_story hmem
  have hcount : tasks.length = taken (journal.take m) := (h m _ hm).1
  exact ⟨m, hmn, hcount ▸ hm⟩

/-- A publish that has returned has notified every slot that it listed. -/
theorem Lawful.slotsSent_of_listed (h : Lawful journal) {p : Publication} {count : Nat}
    (hp : .returned p ∈ journal) (hlist : .listed p count ∈ journal) :
    slotsSent p.call journal = List.range count := by
  obtain ⟨e, tasks, hst⟩ := h.story_of_returned hp
  have hcount : count = tasks.length := by
    have hmem : Entry.listed p count ∈ story p.call journal := mem_story.mpr ⟨hlist, rfl⟩
    rw [hst, List.mem_append, List.mem_singleton] at hmem
    rcases hmem with hmem | hmem
    · rcases mem_publishing hmem with h | h | h | ⟨_, _, h⟩
      all_goals cases h
      rfl
    · cases hmem
  rw [← slotsSent_story, hst, slotsSent_append, slotsSent_publishing, hcount]
  simp [slotsSent, Entry.notice?]

/-- A slot whose registration returned before a publish was called is notified. -/
theorem Lawful.mem_slotsSent (h : Lawful journal) {p : Publication} {call slot i : Nat}
    {e : Event} (hp : .returned p ∈ journal)
    (hreg : Precedes journal (.registered call slot) (.called p.call i e)) :
    slot ∈ slotsSent p.call journal := by
  obtain ⟨a, b, hab, ha, hb⟩ := hreg
  obtain ⟨m, hma, hm⟩ := h.enrolled_before_registered ha
  obtain ⟨k, hk⟩ := List.mem_iff_getElem?.mp hp
  obtain ⟨n, -, hn⟩ := h.listed_before_returned hk
  have hbn : b ≤ n := h.opening_first hb rfl hn rfl
  have hslot : slot = taken (journal.take m) := (h m _ hm).1
  -- the slot was taken before the call, and the observers are listed after it
  have hlt := taken_take_lt hm (show m < n by omega)
  rw [h.slotsSent_of_listed hp (List.mem_of_getElem? hn), List.mem_range]
  omega

/-- A slot whose registration was called after a publish returned is not notified. -/
theorem Lawful.not_mem_slotsSent (h : Lawful journal) {p : Publication} {call slot i : Nat}
    {o : Observer} (hreg : Precedes journal (.returned p) (.enrolling call i o))
    (hslot : .enrolled call slot ∈ journal) : slot ∉ slotsSent p.call journal := by
  obtain ⟨a, b, hab, ha, hb⟩ := hreg
  obtain ⟨m, hm⟩ := List.mem_iff_getElem?.mp hslot
  obtain ⟨n, hna, hn⟩ := h.listed_before_returned ha
  have hbm : b ≤ m := h.opening_first hb rfl hm rfl
  have hslot : slot = taken (journal.take m) := (h m _ hm).1
  -- the observers were listed before the return, and the slot was taken after it
  have hle : taken (journal.take n) ≤ taken (journal.take m) := taken_take_le (by omega)
  rw [h.slotsSent_of_listed (List.mem_of_getElem? ha) (List.mem_of_getElem? hn), List.mem_range]
  omega

end FlowEvents.Bus
