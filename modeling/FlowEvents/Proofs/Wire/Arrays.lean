import FlowEvents.Proofs.Wire.Members

/-! # Arrays are read as objects

A record is read from an array by the order of its fields.  The array says nothing about names, so
it is compared with the object that names its values in declaration order: the two are read alike,
fault by fault, and so are the two forms of every record inside.  What is left are arrays that are
too short or too long, which no object is like.
-/

namespace FlowEvents.Wire

variable {fs : List Field} {js js' : List Json}

/-- As many values here as there, and each field reads its two values alike. -/
def ReadAlike (fs : List Field) (js js' : List Json) : Prop :=
  js.length = js'.length ∧ ∀ p ∈ fs.zip (js.zip js'), p.1.read p.2.1 = p.1.read p.2.2

/-- Every value that stands in the place of a field reads as that field's. -/
def AllRead (fs : List Field) (js : List Json) : Prop :=
  ∀ p ∈ fs.zip js, ∃ x, p.1.read p.2 = .ok x

/-! ## Items in the place of fields -/

section Items

variable (title : String) (total present : Nat)

theorem readItems_step (f : Field) (fs : List Field) (j : Json) (js : List Json) :
    readItems title total present (f :: fs) (j :: js) =
      f.read j >>= fun x => readItems title total (present + 1) fs js >>= fun xs =>
        .ok (x, xs) := rfl

theorem readItems_congr (hlength : js.length ≤ fs.length) (h : ReadAlike fs js js') :
    readItems title total present fs js = readItems title total present fs js' := by
  induction fs generalizing js js' present with
  | nil =>
      cases js with
      | nil => rw [List.length_eq_zero_iff.mp h.1.symm]
      | cons j js => cases hlength
  | cons f fs ih =>
      cases js with
      | nil => rw [List.length_eq_zero_iff.mp h.1.symm]
      | cons j js =>
          obtain ⟨j', js', rfl⟩ := List.exists_cons_of_length_eq_add_one h.1.symm
          have hfirst : f.read j = f.read j' := h.2 (f, j, j') List.mem_cons_self
          have hrest : ReadAlike fs js js' :=
            ⟨Nat.succ.inj h.1, fun p hp => h.2 p (List.mem_cons_of_mem _ hp)⟩
          rw [readItems_step, readItems_step, hfirst,
            ih (present + 1) (Nat.le_of_succ_le_succ hlength) hrest]

/-- An array that ends before a field that must be there. -/
theorem readItems_short (hread : AllRead fs js) {f : Field} (hnext : fs[js.length]? = some f)
    (hf : f.absent = none) : readItems title total present fs js =
      .error (.unsuited (.tooShort (present + js.length) title total)) := by
  induction js generalizing fs present with
  | nil =>
      cases fs with
      | nil => cases hnext
      | cons g fs =>
          obtain rfl : g = f := Option.some.inj hnext
          rw [readItems, hf]
          rfl
  | cons j js ih =>
      cases fs with
      | nil => cases hnext
      | cons g fs =>
          obtain ⟨x, hx⟩ := hread (g, j) List.mem_cons_self
          dsimp only at hx
          have hrest := ih (present + 1) (fun p hp => hread p (List.mem_cons_of_mem _ hp)) hnext
          rw [readItems_step, hx, hrest, List.length_cons, Nat.add_right_comm, Nat.add_assoc]
          rfl

/-- An array that goes on behind the last field. -/
theorem readItems_long (h : fs.length < js.length) :
    ∃ fault, readItems title total present fs js = .error fault := by
  induction fs generalizing js present with
  | nil =>
      cases js with
      | nil => cases h
      | cons j js => exact ⟨_, rfl⟩
  | cons f fs ih =>
      cases js with
      | nil => cases h
      | cons j js =>
          rw [readItems_step]
          cases hread : f.read j with
          | error fault => exact ⟨fault, rfl⟩
          | ok x =>
              obtain ⟨fault, hfault⟩ := ih (present + 1) (Nat.lt_of_succ_lt_succ h)
              rw [hfault]
              exact ⟨fault, rfl⟩

/-- Nobody reads the first item that is too many. -/
theorem readItems_surplus (hread : AllRead fs js) {j : Json} (hnext : js[fs.length]? = some j) :
    readItems title total present fs js = .error (surplus .trailing j) := by
  induction fs generalizing js present with
  | nil =>
      cases js with
      | nil => cases hnext
      | cons j' js =>
          obtain rfl : j' = j := Option.some.inj hnext
          rfl
  | cons f fs ih =>
      cases js with
      | nil => cases hnext
      | cons j' js =>
          obtain ⟨x, hx⟩ := hread (f, j') List.mem_cons_self
          dsimp only at hx
          rw [readItems_step, hx,
            ih (present + 1) (fun p hp => hread p (List.mem_cons_of_mem _ hp)) hnext]
          rfl

end Items

/-! ## The wire forms -/

/-- How a wire form with the fields `fs`, of which the first `least` must be there, is read from an
array. -/
structure ReadsItems {α : Type} (read : Json → Outcome α) (title : String) (fs : List Field)
    (least : Nat) : Prop where
  /-- A text is read as the array or the object that it holds. -/
  text : ∀ text j, Holds text j → decode read text = read j
  /-- An array with enough items is read as the object that names them, whichever form the records
  inside have here or there. -/
  enough : ∀ js js', least ≤ js.length → js.length ≤ fs.length → ReadAlike fs js js' →
    read (.arr js) = read (.obj (inOrder fs js'))
  /-- One with fewer is too short, unless an item is at fault. -/
  short : ∀ js, js.length < least → AllRead fs js →
    read (.arr js) = .error (.unsuited (.tooShort js.length title fs.length))
  /-- One with more is none of its forms, and unless an item in the place of a field is at fault, it
  is the first item behind them that nobody expects. -/
  long : ∀ js, fs.length < js.length → ∃ fault, read (.arr js) = .error fault ∧
    (AllRead fs js → (∀ j ∈ js, j.isFormed = true) → fault = .broken (b := .trailing))
  /-- Whatever is refused has a message. -/
  explained : ∀ js, (∀ j ∈ js, j.isFormed = true) → Explained (read (.arr js))

theorem formed_arr (h : ∀ j ∈ js, j.isFormed = true) : (Json.arr js).isFormed = true := by
  show Json.areFormed js = true
  induction js with
  | nil => rfl
  | cons j js ih =>
      obtain ⟨hj, hjs⟩ := List.forall_mem_cons.mp h
      rw [Json.areFormed, hj, ih hjs]
      rfl

/-- A form that is a record put together is read as the record is. -/
theorem readsItems_of_readRecord {α : Type} {read : Json → Outcome α} {title : String}
    {make : Values fs → α} {least : Nat} (hnames : (fs.map Field.name).Nodup)
    (hread : ∀ j, read j = (readRecord title fs j).map make)
    (hfront : ∀ f ∈ fs.take least, f.absent = none)
    (hback : ∀ f ∈ fs.drop least, f.absent ≠ none) (hleast : least ≤ fs.length)
    (hexplained : ∀ {j : Json}, j.isFormed = true → Explained (read j)) :
    ReadsItems read title fs least where
  text := fun _ _ htext => htext.decode_eq read
  enough := by
    intro js js' henough hlength halike
    have habsent : ∀ f ∈ fs.drop js'.length, f.absent ≠ none := by
      intro f hf
      rw [← halike.1] at hf
      exact hback f ((List.drop_sublist_drop_left fs henough).mem hf)
    have hobject : readRecord title fs (.obj (inOrder fs js')) =
        readItems title fs.length 0 fs js' :=
      Slots.fill_inOrder title fs.length 0 hnames (halike.1 ▸ hlength) habsent
    have harray : readRecord title fs (.arr js) = readItems title fs.length 0 fs js := rfl
    rw [hread, hread, hobject, harray, readItems_congr title fs.length 0 hlength halike]
  short := by
    intro js hshort hitems
    have hlt : js.length < fs.length := Nat.lt_of_lt_of_le hshort hleast
    have hnext : fs[js.length]? = some fs[js.length] := List.getElem?_eq_getElem hlt
    have hmust : fs[js.length].absent = none := by
      refine hfront _ (List.mem_iff_getElem?.mpr ⟨js.length, ?_⟩)
      rw [List.getElem?_take_of_lt hshort, hnext]
    have harray : readRecord title fs (.arr js) = readItems title fs.length 0 fs js := rfl
    rw [hread, harray, readItems_short title fs.length 0 hitems hnext hmust, Nat.zero_add]
    rfl
  long := by
    intro js hlong
    have harray : readRecord title fs (.arr js) = readItems title fs.length 0 fs js := rfl
    obtain ⟨fault, hfault⟩ := readItems_long title fs.length 0 hlong
    rw [hread, harray, hfault]
    refine ⟨fault, rfl, fun hitems hformed => ?_⟩
    have hnext : js[fs.length]? = some js[fs.length] := List.getElem?_eq_getElem hlong
    rw [readItems_surplus title fs.length 0 hitems hnext] at hfault
    rw [← Except.error.inj hfault]
    exact surplus_of_formed (hformed _ (List.getElem_mem hlong))
  explained := fun js hformed => hexplained (formed_arr hformed)

/-- **Arrays are read as objects.** Each of the five forms is read from an array just as from the
object that gives its fields the same values in declaration order, be it well or with a fault; the
last field of an event may be left out of both.  Shorter arrays are told how many items they have,
and longer ones are refused. -/
theorem arrays_read_as_objects :
    ReadsItems readHostId "HostedId" hostIdFields 2 ∧
    ReadsItems readFlow "FlowRef" flowFields 2 ∧
    ReadsItems readNode "NodeRef" nodeFields 2 ∧
    ReadsItems readRun "RunRef" runFields 3 ∧
    ReadsItems readEvent "Event" eventFields 5 :=
  ⟨readsItems_of_readRecord (by decide) readHostId_eq (by simp [hostIdFields, Field.required])
      (by simp [hostIdFields]) (by decide) explained_readHostId,
    readsItems_of_readRecord (by decide) readFlow_eq (by simp [flowFields, Field.required])
      (by simp [flowFields]) (by decide) explained_readFlow,
    readsItems_of_readRecord (by decide) readNode_eq (by simp [nodeFields, Field.required])
      (by simp [nodeFields]) (by decide) explained_readNode,
    readsItems_of_readRecord (by decide) readRun_eq (by simp [runFields, Field.required])
      (by simp [runFields]) (by decide) explained_readRun,
    readsItems_of_readRecord (by decide) readEvent_eq (by simp [eventFields, Field.required])
      (by simp [eventFields, Field.optional]) (by decide) explained_readEvent⟩

/-- A flow in either form, an id that is too short and a host. -/
def shortRun (flow : Json) : List Json :=
  [flow, .arr [.str "h1"], .str "h2"]

/-- The flow with its fields the other way round. -/
def swappedFlow : Json :=
  .ofMembers [("ver", .num (.ofInt 1)), ("id", .str "build")]

def flowItems : Json :=
  .arr [.str "build", .num (.ofInt 1)]

def longFlow : List Json :=
  [.str "build", .num (.ofInt 1), .null]

/-- A run is an array around an object or an object around an array, and the id in it is too short
for either.  In the end a flow goes on behind its version. -/
theorem arrays_read_as_objects_faults :
    decode readRun "[\x7b\"ver\":1,\"id\":\"build\"\x7d,[\"h1\"],\"h2\"]" =
        decode readRun "\x7b\"flow\":[\"build\",1],\"run\":[\"h1\"],\"exec_host\":\"h2\"\x7d" ∧
      decode readRun "\x7b\"flow\":[\"build\",1],\"run\":[\"h1\"],\"exec_host\":\"h2\"\x7d" =
        .error (.unsuited (.tooShort 1 "HostedId" 2)) ∧
      decode readFlow "[\"build\",1,null]" = .error (.broken (b := .trailing)) := by
  obtain ⟨-, hflow, -, hrun, -⟩ := arrays_read_as_objects
  have harray : Holds (Json.arr (shortRun swappedFlow)).print (.arr (shortRun swappedFlow)) :=
    holds_print ⟨⟨⟨_, rfl⟩, trivial, ⟨_, rfl⟩, trivial, trivial⟩, ⟨trivial, trivial⟩, trivial,
      trivial⟩
  have hobject : Holds (Json.obj (inOrder runFields (shortRun flowItems))).print
      (.obj (inOrder runFields (shortRun flowItems))) :=
    holds_print ⟨⟨_, rfl⟩, ⟨trivial, trivial, trivial⟩, ⟨_, rfl⟩, ⟨trivial, trivial⟩, ⟨_, rfl⟩,
      trivial, trivial⟩
  have hlong : Holds (Json.arr longFlow).print (.arr longFlow) :=
    holds_print ⟨trivial, trivial, trivial, trivial⟩
  have hswapped : readFlow swappedFlow = readFlow flowItems := rfl
  have halike : ReadAlike runFields (shortRun swappedFlow) (shortRun flowItems) := by
    refine ⟨rfl, ?_⟩
    simp [runFields, shortRun, Field.required, hswapped]
  rw [show "[\x7b\"ver\":1,\"id\":\"build\"\x7d,[\"h1\"],\"h2\"]" =
      (Json.arr (shortRun swappedFlow)).print from rfl,
    show "\x7b\"flow\":[\"build\",1],\"run\":[\"h1\"],\"exec_host\":\"h2\"\x7d" =
      (Json.obj (inOrder runFields (shortRun flowItems))).print from rfl,
    show "[\"build\",1,null]" = (Json.arr longFlow).print from rfl,
    hrun.text _ _ harray, hrun.text _ _ hobject, hflow.text _ _ hlong]
  refine ⟨hrun.enough _ _ (by decide) (by decide) halike, rfl, ?_⟩
  have hversion : readUInt32 (.num (.ofInt 1)) = .ok 1 := rfl
  have hread : AllRead flowFields longFlow := by
    simp [AllRead, flowFields, longFlow, Field.required, readString, hversion]
  obtain ⟨fault, hfault, htrailing⟩ := hflow.long longFlow (by decide)
  rw [hfault, htrailing hread (by decide)]

end FlowEvents.Wire
