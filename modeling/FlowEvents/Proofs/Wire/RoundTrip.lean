import FlowEvents.Proofs.Wire.Scalars

/-! # Events are read as they were written

Writers put the fields of a record in declaration order.  An object like that is read just as the
array of its values, fault by fault, so for a record it is enough to look at one field after the
other.
-/

namespace FlowEvents.Wire

/-! ## Records in declaration order -/

/-- The members of an object with values for the fields, in declaration order. -/
def inOrder (fs : List Field) (js : List Json) : List (Json.Name × Json) :=
  List.zipWith (fun f j => Json.member f.name j) fs js

theorem name_mem_of_inOrder {fs : List Field} {js : List Json} {m : Json.Name × Json}
    (h : m ∈ inOrder fs js) : ∃ f ∈ fs, m.1 = .plain f.name := by
  induction fs generalizing js with
  | nil => cases h
  | cons f fs ih =>
      cases js with
      | nil => cases h
      | cons j js =>
          rcases List.mem_cons.mp h with rfl | h
          · exact ⟨f, List.mem_cons_self, rfl⟩
          · obtain ⟨g, hg, hname⟩ := ih h
            exact ⟨g, List.mem_cons_of_mem _ hg, hname⟩

/-- Members of other names leave a slot as it is. -/
theorem Slots.fill_cons {f : Field} {fs : List Field} {members : List (Json.Name × Json)}
    (h : ∀ m ∈ members, m.1 ≠ .plain f.name) (slot : Option f.Value) (slots : Slots fs) :
    fill (f :: fs) (cons slot slots) members = (fill fs slots members).map (cons slot) := by
  induction members generalizing slots with
  | nil => rfl
  | cons m members ih =>
      obtain ⟨name, value⟩ := m
      cases name with
      | flawed flaw => rfl
      | plain name =>
          have hne : f.name ≠ name := fun heq => h _ List.mem_cons_self (by rw [heq])
          rw [fill_named, fill_named, put_other hne]
          cases put name value fs slots with
          | error fault => rfl
          | ok slots => exact ih (fun m hm => h m (List.mem_cons_of_mem _ hm)) slots

/-- An empty slot takes what its field is if absent. -/
theorem Slots.finish_absent {f : Field} {fs : List Field} {x : f.Value} (h : f.absent = some x)
    (slots : Slots fs) :
    finish (f :: fs) (cons none slots) = finish fs slots >>= fun xs => .ok (x, xs) := by
  unfold cons
  rw [finish, h]
  rfl

/-- The members of an object in declaration order are read as the items of an array.  Fields at the
end may have no member if they may be absent. -/
theorem Slots.fill_inOrder (title : String) (total present : Nat) {fs : List Field}
    {js : List Json} (hnames : (fs.map Field.name).Nodup) (hlength : js.length ≤ fs.length)
    (habsent : ∀ f ∈ fs.drop js.length, f.absent ≠ none) :
    (fill fs (empty fs) (inOrder fs js) >>= finish fs) = readItems title total present fs js := by
  induction fs generalizing js present with
  | nil =>
      obtain rfl := List.length_eq_zero_iff.mp (Nat.le_zero.mp hlength)
      rfl
  | cons f fs ih =>
      obtain ⟨hfresh, hnames⟩ := List.nodup_cons.mp hnames
      cases js with
      | nil =>
          have hrest : finish fs (empty fs) = readItems title total present fs [] := by
            refine .trans ?_ (ih present hnames (Nat.zero_le _)
              fun g hg => habsent g (List.mem_cons_of_mem _ hg))
            cases fs <;> rfl
          cases hf : f.absent with
          | none => exact absurd hf (habsent f List.mem_cons_self)
          | some x =>
              show finish (f :: fs) (cons none (empty fs)) = _
              rw [finish_absent hf, readItems, hf, hrest]
              rfl
      | cons j js =>
          -- the names differ, so the members behind the first leave its slot alone
          have hothers : ∀ m ∈ inOrder fs js, m.1 ≠ .plain f.name := by
            intro m hm heq
            obtain ⟨g, hg, hname⟩ := name_mem_of_inOrder hm
            have hsame : g.name = f.name := Json.Name.plain.inj (hname.symm.trans heq)
            exact hfresh (List.mem_map.mpr ⟨g, hg, hsame⟩)
          have hrest := ih (present + 1) hnames (Nat.le_of_succ_le_succ hlength) habsent
          rw [readItems, ← hrest]
          show (fill (f :: fs) (cons none (empty fs))
            ((.plain f.name, j) :: inOrder fs js) >>= _) = _
          rw [fill_named, put_same]
          cases hread : f.read j with
          | error fault => rfl
          | ok x =>
              show (fill (f :: fs) (cons (some x) (empty fs)) (inOrder fs js) >>= _) = _
              rw [fill_cons hothers]
              cases fill fs (empty fs) (inOrder fs js) with
              | error fault => rfl
              | ok slots => rfl

/-- An object in declaration order is read as the array of its values. -/
theorem readRecord_inOrder (title : String) (fs : List Field) (js : List Json)
    (hnames : (fs.map Field.name).Nodup) (hlength : js.length = fs.length) :
    readRecord title fs (.obj (inOrder fs js)) = readRecord title fs (.arr js) :=
  Slots.fill_inOrder title fs.length 0 hnames (Nat.le_of_eq hlength) (by simp [hlength])

section Items

variable {title : String} {total present : Nat} {name : String} {α : Type}
  {read : Json → Outcome α} {absent : Option α} {fs : List Field} {j : Json} {js : List Json}

theorem readItems_cons {x : α} {xs : Values fs} (hx : read j = .ok x)
    (hxs : readItems title total (present + 1) fs js = .ok xs) :
    readItems title total present (⟨name, α, read, absent⟩ :: fs) (j :: js) = .ok (x, xs) := by
  show (read j >>= fun x => readItems title total (present + 1) fs js >>= fun xs =>
    .ok (x, xs)) = _
  rw [hx, hxs]
  rfl

theorem readItems_cons_error {x : α} {fault : Fault} (hx : read j = .ok x)
    (hxs : readItems title total (present + 1) fs js = .error fault) :
    readItems title total present (⟨name, α, read, absent⟩ :: fs) (j :: js) = .error fault := by
  show (read j >>= fun x => readItems title total (present + 1) fs js >>= fun xs =>
    .ok (x, xs)) = _
  rw [hx, hxs]
  rfl

theorem readItems_error {fault : Fault} (h : read j = .error fault) :
    readItems title total present (⟨name, α, read, absent⟩ :: fs) (j :: js) = .error fault := by
  show (read j >>= fun x => readItems title total (present + 1) fs js >>= fun xs =>
    .ok (x, xs)) = _
  rw [h]
  rfl

end Items

/-! ## Scalars -/

theorem readUInt64_writeInt (n : UInt64) : readUInt64 (writeInt n.toNat) = .ok n :=
  readUInt64_eq_ok_iff.mpr rfl

theorem readUInt32_writeInt (n : UInt32) : readUInt32 (writeInt n.toNat) = .ok n :=
  readUInt32_eq_ok_iff.mpr rfl

/-! ## Records -/

theorem readHostId_write (h : HostId) : readHostId (writeHostId h) = .ok h := by
  have hread : readRecord "HostedId" hostIdFields (writeHostId h) =
      .ok (h.host, h.number, ()) :=
    (readRecord_inOrder "HostedId" hostIdFields [.str h.host, writeInt h.number.toNat]
      (by decide) rfl).trans
      (readItems_cons rfl (readItems_cons (readUInt64_writeInt h.number) rfl))
  rw [readHostId, hread]
  rfl

theorem readFlow_write (f : FlowVersion) : readFlow (writeFlow f) = .ok f := by
  have hread : readRecord "FlowRef" flowFields (writeFlow f) = .ok (f.flow, f.version, ()) :=
    (readRecord_inOrder "FlowRef" flowFields [.str f.flow, writeInt f.version.toNat]
      (by decide) rfl).trans
      (readItems_cons rfl (readItems_cons (readUInt32_writeInt f.version) rfl))
  rw [readFlow, hread]
  rfl

theorem readKind_write (k : NodeKind) : readKind (writeKind k) = .ok k :=
  readKind_eq_ok_iff.mpr (.inl rfl)

theorem readNode_write (n : Node) : readNode (writeNode n) = .ok n := by
  have hread : readRecord "NodeRef" nodeFields (writeNode n) = .ok (n.kind, n.name, ()) :=
    (readRecord_inOrder "NodeRef" nodeFields [writeKind n.kind, .str n.name]
      (by decide) rfl).trans
      (readItems_cons (readKind_write n.kind) (readItems_cons rfl rfl))
  rw [readNode, hread]
  rfl

theorem readRun_write (r : Run) : readRun (writeRun r) = .ok r := by
  have hread : readRecord "RunRef" runFields (writeRun r) =
      .ok (r.flow, r.origin, r.executor, ()) :=
    (readRecord_inOrder "RunRef" runFields
      [writeFlow r.flow, writeHostId r.origin, .str r.executor] (by decide) rfl).trans
      (readItems_cons (readFlow_write r.flow)
        (readItems_cons (readHostId_write r.origin) (readItems_cons rfl rfl)))
  rw [readRun, hread]
  rfl

/-- All that can go wrong with an event is its payload. -/
theorem readEvent_writeIn (e : Event) (entries : List (String × Tree)) :
    readEvent (writeEventIn entries e) =
      (readEventPayload (.obj (writeEntries entries))).map fun payload => { e with payload } := by
  have hrecord : readRecord "Event" eventFields (writeEventIn entries e) = _ :=
    readRecord_inOrder "Event" eventFields
      [writeRun e.run, writeNode e.source, .str e.tag, .bool e.good, writeInt e.id.toNat,
        .obj (writeEntries entries)] (by decide) rfl
  rw [readEvent, hrecord]
  cases hpayload : readEventPayload (.obj (writeEntries entries)) with
  | error fault =>
      have hitems : readItems "Event" 6 0 eventFields
          [writeRun e.run, writeNode e.source, .str e.tag, .bool e.good, writeInt e.id.toNat,
            .obj (writeEntries entries)] = .error fault :=
        readItems_cons_error (readRun_write e.run) <|
        readItems_cons_error (readNode_write e.source) <|
        readItems_cons_error rfl <|
        readItems_cons_error rfl <|
        readItems_cons_error (readUInt64_writeInt e.id) <|
        readItems_error hpayload
      show (readItems "Event" 6 0 eventFields _ >>= _) = _
      rw [hitems]
      rfl
  | ok payload =>
      have hitems : readItems "Event" 6 0 eventFields
          [writeRun e.run, writeNode e.source, .str e.tag, .bool e.good, writeInt e.id.toNat,
            .obj (writeEntries entries)] =
          .ok (e.run, e.source, e.tag, e.good, e.id, payload, ()) :=
        readItems_cons (readRun_write e.run) <|
        readItems_cons (readNode_write e.source) <|
        readItems_cons rfl <|
        readItems_cons rfl <|
        readItems_cons (readUInt64_writeInt e.id) <|
        readItems_cons hpayload rfl
      show (readItems "Event" 6 0 eventFields _ >>= _) = _
      rw [hitems]
      rfl

/-! ## Texts -/

/-- A text holds a value, blanks around it, and nothing else. -/
def Holds (text : String) (j : Json) : Prop :=
  ∃ rest, Json.parse text.toList = (j, rest) ∧ Json.Parser.skipBlanks rest = []

section Holds

variable {j : Json}

theorem Holds.decode_eq {α : Type} {text : String} (h : Holds text j) (read : Json → Outcome α) :
    decode read text = read j := by
  obtain ⟨rest, hparse, hrest⟩ := h
  rw [decode, hparse]
  dsimp only
  rw [hrest]
  cases read j <;> rfl

theorem holds_print (h : j.Printable) : Holds j.print j :=
  ⟨[], by rw [Json.print, String.toList_ofList, Json.parse_text h], rfl⟩

theorem decode_print {α : Type} (read : Json → Outcome α) (h : j.Printable) :
    decode read j.print = read j :=
  (holds_print h).decode_eq read

end Holds

theorem printable_writeHostId (h : HostId) : (writeHostId h).Printable :=
  ⟨⟨_, rfl⟩, trivial, ⟨_, rfl⟩, trivial, trivial⟩

theorem printable_writeFlow (f : FlowVersion) : (writeFlow f).Printable :=
  ⟨⟨_, rfl⟩, trivial, ⟨_, rfl⟩, trivial, trivial⟩

theorem printable_writeNode (n : Node) : (writeNode n).Printable :=
  ⟨⟨_, rfl⟩, trivial, ⟨_, rfl⟩, trivial, trivial⟩

theorem printable_writeRun (r : Run) : (writeRun r).Printable :=
  ⟨⟨_, rfl⟩, printable_writeFlow r.flow, ⟨_, rfl⟩, printable_writeHostId r.origin, ⟨_, rfl⟩,
    trivial, trivial⟩

theorem printable_writeEventIn (entries : List (String × Tree)) (e : Event) :
    (writeEventIn entries e).Printable :=
  ⟨⟨_, rfl⟩, printable_writeRun e.run, ⟨_, rfl⟩, printable_writeNode e.source, ⟨_, rfl⟩, trivial,
    ⟨_, rfl⟩, trivial, ⟨_, rfl⟩, trivial, ⟨_, rfl⟩, membersPrintable_writeEntries entries, trivial⟩

/-! ## The round trips -/

theorem decode_writeEventIn (e : Event) {entries : List (String × Tree)}
    (h : entries.Perm e.payload.entries) :
    decode readEvent (writeEventIn entries e).print =
      within 125 (Tree.entriesDepth e.payload.entries)
        { e with payload := e.payload.settled } := by
  rw [decode_print readEvent (printable_writeEventIn entries e), readEvent_writeIn,
    readEventPayload, maxDepth, readPayloadWithin_write 125 e.payload h]
  exact map_within _ _ _

theorem decode_writeValue (v : Value) :
    decode readValue (writeValue v).print = within 127 v.tree.depth v.settled := by
  have hprint : (writeValue v).Printable := printable_writeTree v.tree
  rw [decode_print readValue hprint, readValue, maxDepth, readValueWithin_write]

theorem decode_writeEntries (p : Payload) {entries : List (String × Tree)}
    (h : entries.Perm p.entries) :
    decode readPayload (Json.obj (writeEntries entries)).print =
      within 126 (Tree.entriesDepth p.entries) p.settled := by
  have hprint : (Json.obj (writeEntries entries)).Printable := membersPrintable_writeEntries entries
  rw [decode_print readPayload hprint, readPayload, maxDepth, readPayloadWithin_write 126 p h]

theorem lt_entriesDepth {es : List (String × Tree)} {n : Nat} (h : ∃ kv ∈ es, n < kv.2.depth) :
    n < Tree.entriesDepth es := by
  obtain ⟨kv, hkv, hdeep⟩ := h
  exact Nat.lt_of_lt_of_le hdeep (Tree.entriesDepth_le_iff.mp (Nat.le_refl _) kv hkv)

/-- **Wire round trip.** An event is read from its text field by field, whatever order the entries
of its payload were written in; only numbers that are not finite come back as null.  A text nests
at most 127 arrays and objects, of which an event and its payload take two: a value that is nested
deeper than what is left makes the text break.  The same holds of payload values and of payloads
by themselves.  Ids, flow versions, nodes and runs are always read as they were written. -/
theorem wire_round_trip :
    (∀ (e : Event) (entries : List (String × Tree)), entries.Perm e.payload.entries →
      ((∀ kv ∈ e.payload.entries, kv.2.depth ≤ 125) →
        decode readEvent (writeEventIn entries e).print =
          .ok { e with payload := e.payload.settled }) ∧
      ((∃ kv ∈ e.payload.entries, 125 < kv.2.depth) →
        decode readEvent (writeEventIn entries e).print = .error (.broken (b := .tooDeep)))) ∧
    (∀ v : Value,
      (v.tree.depth ≤ 127 → decode readValue (writeValue v).print = .ok v.settled) ∧
      (127 < v.tree.depth →
        decode readValue (writeValue v).print = .error (.broken (b := .tooDeep)))) ∧
    (∀ (p : Payload) (entries : List (String × Tree)), entries.Perm p.entries →
      ((∀ kv ∈ p.entries, kv.2.depth ≤ 126) →
        decode readPayload (Json.obj (writeEntries entries)).print = .ok p.settled) ∧
      ((∃ kv ∈ p.entries, 126 < kv.2.depth) →
        decode readPayload (Json.obj (writeEntries entries)).print =
          .error (.broken (b := .tooDeep)))) ∧
    (∀ h : HostId, decode readHostId (writeHostId h).print = .ok h) ∧
    (∀ f : FlowVersion, decode readFlow (writeFlow f).print = .ok f) ∧
    (∀ n : Node, decode readNode (writeNode n).print = .ok n) ∧
    (∀ r : Run, decode readRun (writeRun r).print = .ok r) := by
  refine ⟨?_, ?_, ?_, ?_, ?_, ?_, ?_⟩
  · intro e entries hperm
    rw [decode_writeEventIn e hperm]
    constructor
    · intro hdepth
      exact within_of_le (Tree.entriesDepth_le_iff.mpr hdepth)
    · intro hdeep
      exact within_of_lt (lt_entriesDepth hdeep)
  · intro v
    rw [decode_writeValue]
    constructor
    · exact within_of_le
    · exact within_of_lt
  · intro p entries hperm
    rw [decode_writeEntries p hperm]
    constructor
    · intro hdepth
      exact within_of_le (Tree.entriesDepth_le_iff.mpr hdepth)
    · intro hdeep
      exact within_of_lt (lt_entriesDepth hdeep)
  · intro h
    rw [decode_print readHostId (printable_writeHostId h), readHostId_write]
  · intro f
    rw [decode_print readFlow (printable_writeFlow f), readFlow_write]
  · intro n
    rw [decode_print readNode (printable_writeNode n), readNode_write]
  · intro r
    rw [decode_print readRun (printable_writeRun r), readRun_write]

/-- A report whose rate is an infinity. -/
def report : Event :=
  { Event.unpublished (.pending ⟨"deploy", 7⟩ "alpha") ⟨.task, "copy"⟩ Event.nodeUpdateTag with
    payload := .ofPairs [("done", .int (-3)), ("rate", .list [.float ⟨0x7ff0000000000000⟩])] }

/-- So many lists in one another. -/
def nested : Nat → Value
  | 0 => .null
  | n + 1 => .list [nested n]

theorem depth_nested (n : Nat) : (nested n).tree.depth = n := by
  induction n with
  | zero => rfl
  | succ n ih =>
      show max (nested n).tree.depth 0 + 1 = n + 1
      rw [ih, Nat.max_zero]

theorem settled_nested (n : Nat) : (nested n).tree.settled = (nested n).tree := by
  induction n with
  | zero => rfl
  | succ n ih =>
      show Tree.list [(nested n).tree.settled] = .list [(nested n).tree]
      rw [ih]

theorem wire_round_trip_limits :
    decode readEvent (writeEventIn report.payload.entries.reverse report).print =
        .ok { report with payload := .ofPairs [("done", .int (-3)), ("rate", .list [.null])] } ∧
      decode readValue (writeValue (nested 127)).print = .ok (nested 127) ∧
      decode readValue (writeValue (nested 128)).print = .error (.broken (b := .tooDeep)) := by
  obtain ⟨hevent, hvalue, -⟩ := wire_round_trip
  refine ⟨?_, ?_, ?_⟩
  · exact (hevent report _ (List.reverse_perm _)).1 (by decide)
  · have hread := (hvalue (nested 127)).1 (Nat.le_of_eq (depth_nested 127))
    rw [show (nested 127).settled = nested 127 from Value.ext (settled_nested 127)] at hread
    exact hread
  · exact (hvalue (nested 128)).2 (by rw [depth_nested]; decide)

end FlowEvents.Wire
