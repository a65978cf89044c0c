import FlowEvents.Wire.Forms

/-! # Refusals are explained

There is no message for a text that is no JSON, and for everything else that is refused there is
one.  So whatever reads a value in which nothing is malformed either reads it or says why not
(`explained_readRecord`, `explained_readTree`): a reader meets no flaw but those of the value.
-/

namespace FlowEvents.Wire

/-- What fails has a message. -/
def Explained {α : Type} (outcome : Outcome α) : Prop :=
  ∀ fault, outcome = .error fault → ∃ message, fault.message? = some message

section Outcome

variable {α β : Type} {outcome : Outcome α}

theorem explained_ok (a : α) : Explained (.ok a) := by
  intro fault h
  cases h

theorem explained_unsuited (cause : Cause) : Explained (.error (.unsuited cause) : Outcome α) := by
  intro fault h
  cases h
  exact ⟨cause.message, rfl⟩

theorem explained_broken {b : Break} (h : b ≠ .flawed .malformed) :
    Explained (.error (.broken (b := b)) : Outcome α) := by
  intro fault hfault
  cases hfault
  cases b with
  | flawed flaw =>
      cases flaw with
      | malformed => exact absurd rfl h
      | loneHalf | openHalf => exact ⟨_, rfl⟩
  | noAlternative | trailing | beyondRange | tooDeep => exact ⟨_, rfl⟩

theorem Explained.bind {f : α → Outcome β} (h : Explained outcome)
    (hf : ∀ a, outcome = .ok a → Explained (f a)) : Explained (outcome >>= f) := by
  intro fault hfault
  rcases bind_eq_error_iff.mp hfault with hfirst | ⟨a, ha, hnext⟩
  · exact h fault hfirst
  · exact hf a ha fault hnext

theorem Explained.map (h : Explained outcome) (f : α → β) : Explained (outcome.map f) :=
  fun fault hfault => h fault (map_eq_error_iff.mp hfault)

end Outcome

/-! ## Single values -/

theorem explained_flawed {α : Type} {flaw : Json.Flaw} (h : (Json.flawed flaw).isFormed = true) :
    Explained (.error (.broken (b := .flawed flaw)) : Outcome α) := by
  apply explained_broken
  rintro ⟨⟩
  cases h

theorem explained_readName {name : Json.Name} (h : name ≠ .flawed .malformed) :
    Explained (readName name) := by
  cases name with
  | plain s => exact explained_ok s
  | flawed flaw =>
      apply explained_broken
      rintro ⟨⟩
      exact h rfl

theorem explained_ranged {α : Type} (x? : Option α) : Explained (ranged x?) := by
  cases x? with
  | some x => exact explained_ok x
  | none => exact explained_broken (by decide)

variable {j : Json}

theorem explained_wrongKind {α : Type} (expected : Expected) (h : j.isFormed = true) :
    Explained (wrongKind expected j : Outcome α) := by
  have hfound : Explained (Found.ofJson j) := by
    cases j with
    | num l => exact explained_ranged _
    | flawed flaw => exact explained_flawed h
    | null | bool | str | arr | obj => exact explained_ok _
  exact hfound.bind fun found _ => explained_unsuited _

theorem surplus_of_formed {b : Break} (h : j.isFormed = true) : surplus b j = .broken (b := b) := by
  unfold surplus
  split
  next => cases h
  next => rfl

theorem explained_surplus {α : Type} {b : Break} (hb : b ≠ .flawed .malformed)
    (h : j.isFormed = true) : Explained (.error (surplus b j) : Outcome α) := by
  rw [surplus_of_formed h]
  exact explained_broken hb

theorem explained_readString (h : j.isFormed = true) : Explained (readString j) := by
  unfold readString
  split
  next s => exact explained_ok s
  next => exact explained_wrongKind .string h

theorem explained_readBool (h : j.isFormed = true) : Explained (readBool j) := by
  unfold readBool
  split
  next b => exact explained_ok b
  next => exact explained_wrongKind .bool h

theorem explained_readUnit (h : j.isFormed = true) : Explained (readUnit j) := by
  unfold readUnit
  split
  next => exact explained_ok ()
  next => exact explained_wrongKind .unit h

theorem explained_readNat (width : Nat) (h : j.isFormed = true) :
    Explained (readNat width j) := by
  unfold readNat
  split
  next l =>
    split
    next n hn =>
      split
      next => exact explained_ok _
      next => exact explained_unsuited _
    next => exact explained_wrongKind (.word width) h
  next => exact explained_wrongKind (.word width) h

theorem formed_member {name : Json.Name} {value : Json} {members : List (Json.Name × Json)}
    (h : Json.membersFormed ((name, value) :: members) = true) :
    name ≠ .flawed .malformed ∧ value.isFormed = true ∧ Json.membersFormed members = true := by
  simp only [Json.membersFormed, Bool.and_eq_true, bne_iff_ne] at h
  exact ⟨h.1.1, h.1.2, h.2⟩

theorem formed_item {item : Json} {items : List Json}
    (h : Json.areFormed (item :: items) = true) :
    item.isFormed = true ∧ Json.areFormed items = true := by
  simpa only [Json.areFormed, Bool.and_eq_true] using h

theorem explained_kindOfName (name : String) : Explained (kindOfName name) := by
  unfold kindOfName
  split
  next k _ => exact explained_ok k
  next => exact explained_unsuited _

theorem explained_readKind (h : j.isFormed = true) : Explained (readKind j) := by
  unfold readKind
  split
  next name => exact explained_kindOfName name
  next name value members =>
    obtain ⟨hname, hvalue, hmembers⟩ := formed_member h
    refine (explained_readName hname).bind fun name _ => ?_
    refine (explained_kindOfName name).bind fun k _ => ?_
    refine (explained_readUnit hvalue).bind fun _ _ => ?_
    split
    next => exact explained_ok k
    next _ next members => exact explained_surplus (by decide) (formed_member hmembers).2.1
  next flaw => exact explained_flawed h
  next => exact explained_broken (by decide)

/-! ## Records -/

section Record

variable {fs : List Field}

theorem explained_put (hfs : ∀ f ∈ fs, ∀ j : Json, j.isFormed = true → Explained (f.read j))
    (name : String) {value : Json} (hvalue : value.isFormed = true) (slots : Slots fs) :
    Explained (Slots.put name value fs slots) := by
  induction fs with
  | nil =>
      rw [Slots.put_nil hvalue]
      exact explained_ok slots
  | cons f fs ih =>
      obtain ⟨slot, slots⟩ := slots
      obtain ⟨hf, hfs⟩ := List.forall_mem_cons.mp hfs
      show Explained (Slots.put name value (f :: fs) (Slots.cons slot slots))
      by_cases hname : f.name = name
      · subst hname
        cases slot with
        | some x =>
            rw [Slots.put_again]
            exact explained_unsuited _
        | none =>
            rw [Slots.put_same]
            exact (hf value hvalue).bind fun x _ => explained_ok _
      · rw [Slots.put_other hname]
        exact (ih hfs slots).bind fun slots _ => explained_ok _

theorem explained_fill (hfs : ∀ f ∈ fs, ∀ j : Json, j.isFormed = true → Explained (f.read j))
    {members : List (Json.Name × Json)} (h : Json.membersFormed members = true)
    (slots : Slots fs) : Explained (Slots.fill fs slots members) := by
  induction members generalizing slots with
  | nil => exact explained_ok slots
  | cons m members ih =>
      obtain ⟨name, value⟩ := m
      obtain ⟨hname, hvalue, hmembers⟩ := formed_member h
      refine (explained_readName hname).bind fun name _ => ?_
      exact (explained_put hfs name hvalue slots).bind fun slots _ => ih hmembers slots

theorem explained_finish (slots : Slots fs) : Explained (Slots.finish fs slots) := by
  induction fs with
  | nil => exact explained_ok _
  | cons f fs ih =>
      obtain ⟨slot, slots⟩ := slots
      show Explained (Slots.finish (f :: fs) (Slots.cons slot slots))
      rw [Slots.finish_cons]
      split
      next => exact explained_unsuited _
      next => exact (ih slots).bind fun xs _ => explained_ok _

theorem explained_readItems (title : String) (total : Nat)
    (hfs : ∀ f ∈ fs, ∀ j : Json, j.isFormed = true → Explained (f.read j)) {items : List Json}
    (h : Json.areFormed items = true) (present : Nat) :
    Explained (readItems title total present fs items) := by
  induction fs generalizing items present with
  | nil =>
      cases items with
      | nil => exact explained_ok _
      | cons item items => exact explained_surplus (by decide) (formed_item h).1
  | cons f fs ih =>
      obtain ⟨hf, hfs⟩ := List.forall_mem_cons.mp hfs
      cases items with
      | nil =>
          rw [readItems]
          split
          next => exact explained_unsuited _
          next => exact (ih hfs h present).bind fun xs _ => explained_ok _
      | cons item items =>
          refine (hf item (formed_item h).1).bind fun x _ => ?_
          exact (ih hfs (formed_item h).2 (present + 1)).bind fun xs _ => explained_ok _

theorem explained_readRecord (title : String)
    (hfs : ∀ f ∈ fs, ∀ j : Json, j.isFormed = true → Explained (f.read j)) (h : j.isFormed = true) :
    Explained (readRecord title fs j) := by
  unfold readRecord
  split
  next members =>
    exact (explained_fill hfs h (Slots.empty fs)).bind fun slots _ => explained_finish slots
  next items => exact explained_readItems title fs.length hfs h 0
  next => exact explained_wrongKind (.record title) h

end Record

/-! ## Payloads -/

mutual

theorem explained_readTree : ∀ {j : Json} (room : Nat), j.isFormed = true →
    Explained (readTree room j)
  | .null, _, _ | .bool _, _, _ | .str _, _, _ => explained_ok _
  | .num _, _, _ => explained_ranged _
  | .arr _, 0, _ | .obj _, 0, _ => explained_broken (by decide)
  | .arr _, room + 1, h => (explained_readTrees room h).map _
  | .obj _, room + 1, h => (explained_readEntries room h).map _
  | .flawed _, _, h => explained_flawed h

theorem explained_readTrees : ∀ {items : List Json} (room : Nat), Json.areFormed items = true →
    Explained (readTrees room items)
  | [], _, _ => explained_ok _
  | _ :: _, room, h =>
    (explained_readTree room (formed_item h).1).bind fun _ _ =>
      (explained_readTrees room (formed_item h).2).bind fun _ _ => explained_ok _

theorem explained_readEntries : ∀ {members : List (Json.Name × Json)} (room : Nat),
    Json.membersFormed members = true → Explained (readEntries room members)
  | [], _, _ => explained_ok _
  | (_, _) :: _, room, h =>
    (explained_readName (formed_member h).1).bind fun _ _ =>
      (explained_readTree room (formed_member h).2.1).bind fun _ _ =>
        (explained_readEntries room (formed_member h).2.2).bind fun _ _ => explained_ok _

end

theorem explained_readPayloadWithin (room : Nat) (h : j.isFormed = true) :
    Explained (readPayloadWithin room j) := by
  cases j with
  | obj members =>
      cases room with
      | zero => exact explained_broken (by decide)
      | succ room =>
          have hentries := explained_readEntries room h
          cases hread : readEntries room members with
          | error fault =>
              rw [readPayloadWithin_eq_error hread]
              rintro _ ⟨⟩
              exact hentries fault hread
          | ok ps =>
              rw [readPayloadWithin_eq_ok hread]
              exact explained_ok _
  | null | bool | num | str | arr | flawed => exact explained_wrongKind .map h

/-! ## The wire forms -/

/-- A form that is a record put together is explained if the readers of its fields are. -/
theorem explained_of_readRecord {α : Type} {read : Json → Outcome α} {title : String}
    {fs : List Field} {make : Values fs → α}
    (hread : ∀ j, read j = (readRecord title fs j).map make)
    (hfs : ∀ f ∈ fs, ∀ j : Json, j.isFormed = true → Explained (f.read j))
    (h : j.isFormed = true) : Explained (read j) := by
  rw [hread]
  exact (explained_readRecord title hfs h).map make

theorem explained_readHostId (h : j.isFormed = true) : Explained (readHostId j) := by
  refine explained_of_readRecord readHostId_eq ?_ h
  simp only [hostIdFields, Field.required, List.forall_mem_cons]
  exact ⟨fun _ => explained_readString, fun _ hj => (explained_readNat 64 hj).map _, by simp⟩

theorem explained_readFlow (h : j.isFormed = true) : Explained (readFlow j) := by
  refine explained_of_readRecord readFlow_eq ?_ h
  simp only [flowFields, Field.required, List.forall_mem_cons]
  exact ⟨fun _ => explained_readString, fun _ hj => (explained_readNat 32 hj).map _, by simp⟩

theorem explained_readNode (h : j.isFormed = true) : Explained (readNode j) := by
  refine explained_of_readRecord readNode_eq ?_ h
  simp only [nodeFields, Field.required, List.forall_mem_cons]
  exact ⟨fun _ => explained_readKind, fun _ => explained_readString, by simp⟩

theorem explained_readRun (h : j.isFormed = true) : Explained (readRun j) := by
  refine explained_of_readRecord readRun_eq ?_ h
  simp only [runFields, Field.required, List.forall_mem_cons]
  exact ⟨fun _ => explained_readFlow, fun _ => explained_readHostId, fun _ => explained_readString,
    by simp⟩

theorem explained_readEvent (h : j.isFormed = true) : Explained (readEvent j) := by
  refine explained_of_readRecord readEvent_eq ?_ h
  simp only [eventFields, Field.required, Field.optional, List.forall_mem_cons]
  exact ⟨fun _ => explained_readRun, fun _ => explained_readNode, fun _ => explained_readString,
    fun _ => explained_readBool, fun _ hj => (explained_readNat 64 hj).map _,
    fun _ => explained_readPayloadWithin (maxDepth - 1), by simp⟩

end FlowEvents.Wire
