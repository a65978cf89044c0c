import FlowEvents.Event.Edit

/-! # The life of a run

A run is offered ids and moved between hosts, in any order and any number of times.  Whatever the
order, what becomes of it can be told at a glance: it takes the first id offered that is one, unless
it held one from the start, and it is where it was last moved to.

`accepted` lists the offers that were taken.  That it holds one offer at most, and which
(`accepted_eq`), is the fact that the rest follows from.
-/

namespace FlowEvents

namespace Run

/-- What is done to a run. -/
inductive Change where
  | adopt (offer : HostId)
  | migrate (executor : String)

/-- Carries out a change in place, and gives the answer. -/
def apply (r : Run) : Change → Run × Except IdFault Unit
  | .adopt offer =>
    match r.adopt offer with
    | .ok adopted => (adopted, .ok ())
    | .error fault => (r, .error fault)
  | .migrate executor => (r.migrate executor, .ok ())

/-- Carries out changes in order, whatever they answer. -/
def applyAll (r : Run) (changes : List Change) : Run :=
  changes.foldl (fun r change => (r.apply change).1) r

/-- The ids that are offered. -/
def offers (changes : List Change) : List HostId :=
  changes.filterMap fun
    | .adopt offer => some offer
    | .migrate _ => none

/-- The hosts that execution moves to. -/
def destinations (changes : List Change) : List String :=
  changes.filterMap fun
    | .adopt _ => none
    | .migrate executor => some executor

/-- The offers that are taken. -/
def accepted (r : Run) : List Change → List HostId
  | [] => []
  | .adopt offer :: changes =>
    match r.adopt offer with
    | .ok adopted => offer :: adopted.accepted changes
    | .error _ => r.accepted changes
  | .migrate executor :: changes => (r.migrate executor).accepted changes

variable (r : Run)

theorem applyAll_cons (change : Change) (changes : List Change) :
    r.applyAll (change :: changes) = (r.apply change).1.applyAll changes := rfl

theorem applyAll_append (past rest : List Change) :
    r.applyAll (past ++ rest) = (r.applyAll past).applyAll rest := by
  simp [applyAll, List.foldl_append]

theorem applyAll_concat (past : List Change) (change : Change) :
    r.applyAll (past ++ [change]) = ((r.applyAll past).apply change).1 :=
  r.applyAll_append past [change]

/-! ## One offer -/

variable {r}

theorem adopt_of_adopted (h : r.adopted = true) (offer : HostId) :
    r.adopt offer = .error (.alreadyAdopted r.origin.text) := by
  rw [adopt, if_pos h]

theorem adopt_of_assigned (h : r.adopted = false) {offer : HostId}
    (ho : offer.isAssigned = true) : r.adopt offer = .ok { r with origin := offer } := by
  rw [adopt, if_neg (by simp [h]), if_pos ho]

theorem adopt_of_unassigned (h : r.adopted = false) {offer : HostId}
    (ho : offer.isAssigned = false) : r.adopt offer = .error (.unassigned offer.host) := by
  rw [adopt, if_neg (by simp [h]), if_neg (by simp [ho])]

/-- An adopted run is the run it was but for its origin. -/
theorem eq_of_adopt {offer : HostId} {adopted : Run} (h : r.adopt offer = .ok adopted) :
    adopted = { r with origin := offer } := by
  rw [adopt] at h
  split at h
  next => cases h
  next =>
    split at h
    next => exact (Except.ok.inj h).symm
    next => cases h

/-- What was refused changed nothing. -/
theorem apply_of_refused {change : Change} {fault : IdFault}
    (h : (r.apply change).2 = .error fault) : (r.apply change).1 = r := by
  cases change with
  | migrate executor => cases h
  | adopt offer =>
      rw [apply] at h ⊢
      cases hadopt : r.adopt offer with
      | error fault' => rfl
      | ok adopted =>
          rw [hadopt] at h
          cases h

theorem apply_adopt_eq_ok_iff {offer : HostId} :
    (r.apply (.adopt offer)).2 = .ok () ↔ r.adopted = false ∧ offer.isAssigned = true := by
  rw [apply]
  by_cases h : r.adopted = true
  · simp [adopt_of_adopted h, h]
  · rw [Bool.not_eq_true] at h
    by_cases ho : offer.isAssigned = true
    · simp [adopt_of_assigned h ho, h, ho]
    · rw [Bool.not_eq_true] at ho
      simp [adopt_of_unassigned h ho, ho]

/-! ## Any number of offers -/

/-- Of an adopted run's offers none is taken; of the others' the first that is an id. -/
theorem accepted_eq (r : Run) (changes : List Change) :
    r.accepted changes =
      if r.adopted then [] else ((offers changes).find? HostId.isAssigned).toList := by
  induction changes generalizing r with
  | nil => cases r.adopted <;> rfl
  | cons change changes ih =>
      cases change with
      | migrate executor =>
          rw [accepted, ih]
          rfl
      | adopt offer =>
          have hoffers : offers (.adopt offer :: changes) = offer :: offers changes := rfl
          rw [accepted, hoffers]
          by_cases h : r.adopted = true
          · rw [adopt_of_adopted h]
            dsimp only
            rw [ih, if_pos h, if_pos h]
          · rw [if_neg h]
            rw [Bool.not_eq_true] at h
            by_cases ho : offer.isAssigned = true
            · -- from here on the run is adopted, so no other offer is taken
              have hadopted : Run.adopted { r with origin := offer } = true := ho
              rw [adopt_of_assigned h ho, List.find?_cons_of_pos ho]
              dsimp only
              rw [ih, if_pos hadopted]
              rfl
            · rw [Bool.not_eq_true] at ho
              rw [adopt_of_unassigned h ho, List.find?_cons_of_neg (by simp [ho])]
              dsimp only
              rw [ih, if_neg (by simp [h])]

theorem length_accepted_le_one (r : Run) (changes : List Change) :
    (r.accepted changes).length ≤ 1 := by
  rw [accepted_eq]
  split
  next => exact Nat.zero_le _
  next => cases (offers changes).find? HostId.isAssigned <;> simp

theorem isAssigned_of_mem_accepted {offer : HostId} {changes : List Change}
    (h : offer ∈ r.accepted changes) : r.adopted = false ∧ offer.isAssigned = true := by
  rw [accepted_eq] at h
  split at h
  next => cases h
  next hadopted =>
    rw [Option.mem_toList] at h
    exact ⟨Bool.not_eq_true _ ▸ hadopted, List.find?_some h⟩

/-- The run has the origin that it took last, or else the one that it had. -/
theorem origin_applyAll (r : Run) (changes : List Change) :
    (r.applyAll changes).origin = (r.accepted changes).getLast?.getD r.origin := by
  induction changes generalizing r with
  | nil => rfl
  | cons change changes ih =>
      rw [applyAll_cons, ih]
      cases change with
      | migrate executor => rfl
      | adopt offer =>
          rw [apply, accepted]
          cases hadopt : r.adopt offer with
          | error fault => rfl
          | ok adopted =>
              dsimp only
              rw [eq_of_adopt hadopt, List.getLast?_cons]
              rfl

theorem flow_apply (r : Run) (change : Change) : (r.apply change).1.flow = r.flow := by
  cases change with
  | migrate executor => rfl
  | adopt offer =>
      rw [apply]
      cases hadopt : r.adopt offer with
      | error fault => rfl
      | ok adopted => rw [eq_of_adopt hadopt]

theorem flow_applyAll (r : Run) (changes : List Change) :
    (r.applyAll changes).flow = r.flow := by
  induction changes generalizing r with
  | nil => rfl
  | cons change changes ih => rw [applyAll_cons, ih, flow_apply]

theorem executor_apply_adopt (r : Run) (offer : HostId) :
    (r.apply (.adopt offer)).1.executor = r.executor := by
  rw [apply]
  cases hadopt : r.adopt offer with
  | error fault => rfl
  | ok adopted => rw [eq_of_adopt hadopt]

theorem executor_applyAll (r : Run) (changes : List Change) :
    (r.applyAll changes).executor = (destinations changes).getLast?.getD r.executor := by
  induction changes generalizing r with
  | nil => rfl
  | cons change changes ih =>
      rw [applyAll_cons, ih]
      cases change with
      | adopt offer =>
          rw [executor_apply_adopt]
          rfl
      | migrate executor =>
          have hcons : destinations (.migrate executor :: changes) =
              executor :: destinations changes := rfl
          rw [hcons, List.getLast?_cons]
          rfl

theorem adopted_kept {r : Run} (h : r.adopted = true) (changes : List Change) :
    (r.applyAll changes).origin = r.origin := by
  rw [origin_applyAll, accepted_eq, if_pos h]
  rfl

/-- A run equals what becomes of it just if no offer is taken on the way: an id that is taken is
none that the run held. -/
theorem applyAll_beq_iff (r : Run) (changes : List Change) :
    (r.applyAll changes == r) = true ↔ r.accepted changes = [] := by
  have hid : (r.applyAll changes).identity = r.identity ↔
      (r.accepted changes).getLast?.getD r.origin = r.origin := by
    rw [identity, identity, flow_applyAll, origin_applyAll, Prod.mk.injEq]
    exact and_iff_right rfl
  rw [beq_iff, hid]
  cases hlast : (r.accepted changes).getLast? with
  | none => exact iff_of_true rfl (List.getLast?_eq_none_iff.mp hlast)
  | some offer =>
      obtain ⟨hpending, hassigned⟩ := isAssigned_of_mem_accepted (List.mem_of_getLast? hlast)
      refine iff_of_false ?_ (List.ne_nil_of_mem (List.mem_of_getLast? hlast))
      intro horigin
      rw [Option.getD_some] at horigin
      rw [adopted, ← horigin, hassigned] at hpending
      cases hpending

/-! ## The whole life -/

/-- What becomes of a run, and what is answered on the way. -/
structure Lifecycle (r : Run) (changes : List Change) : Prop where
  flow : (r.applyAll changes).flow = r.flow
  /-- It keeps the id it holds, or takes the first one offered, or goes without. -/
  origin : (r.applyAll changes).origin =
    if r.origin.number ≠ 0 then r.origin
    else ((offers changes).find? fun offer => offer.number ≠ 0).getD r.origin
  executor : (r.applyAll changes).executor = (destinations changes).getLast?.getD r.executor
  /-- Once adopted, it is adopted for good. -/
  kept : ∀ past rest, changes = past ++ rest → (r.applyAll past).adopted = true →
    (r.applyAll changes).origin = (r.applyAll past).origin
  /-- An offer is taken just if the run holds no id and the offer is one. -/
  taken : ∀ past offer rest, changes = past ++ .adopt offer :: rest →
    (((r.applyAll past).apply (.adopt offer)).2 = .ok () ↔
      (r.applyAll past).adopted = false ∧ offer.number ≠ 0)
  /-- That the run holds an id is told first, whatever is offered. -/
  held : ∀ past offer rest, changes = past ++ .adopt offer :: rest →
    (r.applyAll past).adopted = true → ((r.applyAll past).apply (.adopt offer)).2 =
      .error (.alreadyAdopted (r.applyAll past).origin.text)
  reserved : ∀ past offer rest, changes = past ++ .adopt offer :: rest →
    (r.applyAll past).adopted = false → offer.number = 0 →
      ((r.applyAll past).apply (.adopt offer)).2 = .error (.unassigned offer.host)
  /-- What is refused leaves the run as it was. -/
  refused : ∀ past change rest fault, changes = past ++ change :: rest →
    ((r.applyAll past).apply change).2 = .error fault →
      r.applyAll (past ++ [change]) = r.applyAll past
  once : (r.accepted changes).length ≤ 1
  /-- It equals what it was at an earlier time just if no offer has been taken since. -/
  same : ∀ past rest, changes = past ++ rest →
    ((r.applyAll changes == r.applyAll past) = true ↔ (r.applyAll past).accepted rest = [])

/-- **The life of a run.** Whatever is done to a run, and in whichever order, it is adopted once at
most and for good; nothing but the moves changes where it is executed; and it equals every earlier
copy of itself unless an id has been taken in between. -/
theorem lifecycle (r : Run) (changes : List Change) : r.Lifecycle changes where
  flow := r.flow_applyAll changes
  origin := by
    rw [origin_applyAll, accepted_eq]
    by_cases h : r.origin.number = 0
    · have hpending : r.adopted = false := by simp [adopted, HostId.isAssigned, h]
      have hassigned : HostId.isAssigned = fun offer => decide (offer.number ≠ 0) := by
        ext1 offer
        by_cases ho : offer.number = 0 <;> simp [HostId.isAssigned, ho]
      rw [if_neg (by simp [hpending]), if_neg (by simp [h]), hassigned]
      cases (offers changes).find? fun offer => decide (offer.number ≠ 0) <;> rfl
    · have hadopted : r.adopted = true := by simp [adopted, HostId.isAssigned, h]
      rw [if_pos hadopted, if_pos h]
      rfl
  executor := r.executor_applyAll changes
  kept := by
    rintro past rest rfl hadopted
    rw [applyAll_append]
    exact adopted_kept hadopted rest
  taken := by
    rintro past offer rest -
    rw [apply_adopt_eq_ok_iff, HostId.isAssigned, bne_iff_ne]
  held := by
    rintro past offer rest - hadopted
    rw [apply, adopt_of_adopted hadopted]
  reserved := by
    rintro past offer rest - hpending hzero
    have hunassigned : offer.isAssigned = false := by simp [HostId.isAssigned, hzero]
    rw [apply, adopt_of_unassigned hpending hunassigned]
  refused := by
    rintro past change rest fault - hfault
    rw [applyAll_concat]
    exact apply_of_refused hfault
  once := r.length_accepted_le_one changes
  same := by
    rintro past rest rfl
    rw [applyAll_append]
    exact (r.applyAll past).applyAll_beq_iff rest

/-- A zero is offered to a run that holds an id: what is told is that it holds one. -/
example : ((pending ⟨"deploy", 7⟩ "alpha").applyAll
    [.adopt ⟨"beta", 4⟩, .migrate "gamma"]).apply (.adopt ⟨"beta", 0⟩) =
      (⟨⟨"deploy", 7⟩, ⟨"beta", 4⟩, "gamma"⟩, .error (.alreadyAdopted "beta-4")) := by
  cbv

end Run

/-! ## The run of an event -/

/-- The edit of an event that changes its run. -/
def Run.Change.edit : Run.Change → Event.Edit
  | .adopt offer => .adopt offer
  | .migrate executor => .migrate executor

/-- What is done to an event's run is done to nothing else of the event. -/
theorem Event.applyAll_edit (e : Event) (changes : List Run.Change) :
    e.applyAll (changes.map Run.Change.edit) = { e with run := e.run.applyAll changes } := by
  induction changes generalizing e with
  | nil => rfl
  | cons change changes ih =>
      have hone : (e.apply change.edit).1 = { e with run := (e.run.apply change).1 } := by
        cases change with
        | migrate executor => rfl
        | adopt offer =>
            rw [Run.Change.edit, Event.apply, Run.apply]
            cases e.run.adopt offer <;> rfl
      have hcons : e.applyAll ((change :: changes).map Run.Change.edit) =
          (e.apply change.edit).1.applyAll (changes.map Run.Change.edit) := rfl
      rw [hcons, hone, ih, Run.applyAll_cons]

end FlowEvents
