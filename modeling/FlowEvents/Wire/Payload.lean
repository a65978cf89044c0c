import FlowEvents.Payload.Value
import FlowEvents.Wire.Scalar

/-! # Reading and writing payloads

A payload value has no mark of its kind on the wire; the kind of the JSON value decides.  An integer
in the range of the signed words is an integer, every other number a floating-point one, and of
members with the same name the last one counts.

Reading stops at a given depth: `room` is how many more arrays and objects may be nested.  A whole
text may nest `maxDepth` of them.

A floating-point number without a literal is written as null.
-/

namespace FlowEvents.Wire

open Decimal (Binary64)

/-- How many arrays and objects may be nested in a text. -/
def maxDepth : Nat := 127

def numberTree? : Number → Option Tree
  | .integer n =>
    if n < 2 ^ 63 then some (.int (Int64.ofInt n))
    else (Binary64.ofDecimal false n.toNat 0).map Tree.float
  | .float x => some (.float x)

mutual

def readTree (room : Nat) : Json → Outcome Tree
  | .null => .ok .null
  | .bool b => .ok (.bool b)
  | .num l => ranged (Number.ofLiteral? l >>= numberTree?)
  | .str s => .ok (.str s)
  | .arr items =>
    match room with
    | 0 => .error (.broken (b := .tooDeep))
    | room + 1 => (readTrees room items).map Tree.list
  | .obj members =>
    match room with
    | 0 => .error (.broken (b := .tooDeep))
    | room + 1 => (readEntries room members).map fun ps => .map (Entries.ofPairs ps)
  | .flawed flaw => .error (.broken (b := .flawed flaw))

def readTrees (room : Nat) : List Json → Outcome (List Tree)
  | [] => .ok []
  | item :: items => do
    let t ← readTree room item
    let ts ← readTrees room items
    return t :: ts

def readEntries (room : Nat) : List (Json.Name × Json) → Outcome (List (String × Tree))
  | [] => .ok []
  | (name, value) :: members => do
    let key ← readName name
    let t ← readTree room value
    let ts ← readEntries room members
    return (key, t) :: ts

end

mutual

def writeTree : Tree → Json
  | .null => .null
  | .bool b => .bool b
  | .int n => writeInt n.toInt
  | .float x =>
    match x.literal? with
    | some l => .num l
    | none => .null
  | .str s => .str s
  | .list items => .arr (writeTrees items)
  | .map entries => .obj (writeEntries entries)

def writeTrees : List Tree → List Json
  | [] => []
  | t :: ts => writeTree t :: writeTrees ts

/-- Writes entries in the order given. -/
def writeEntries : List (String × Tree) → List (Json.Name × Json)
  | [] => []
  | (key, t) :: es => Json.member key (writeTree t) :: writeEntries es

end

/-! ## What is read is in order -/

mutual

theorem ordered_of_readTree {room : Nat} {j : Json} {t : Tree} (h : readTree room j = .ok t) :
    t.Ordered := by
  match j, room with
  | .null, _ | .bool _, _ | .str _, _ =>
    simp only [readTree, Except.ok.injEq] at h
    subst h
    simp [Tree.Ordered]
  | .num l, _ =>
    obtain ⟨n, -, hn⟩ := Option.bind_eq_some_iff.mp (ranged_eq_ok_iff.mp h)
    cases n with
    | integer n =>
      simp only [numberTree?] at hn
      split at hn
      · cases hn
        simp [Tree.Ordered]
      · obtain ⟨x, -, rfl⟩ := Option.map_eq_some_iff.mp hn
        simp [Tree.Ordered]
    | float x =>
      cases hn
      simp [Tree.Ordered]
  | .arr items, room + 1 =>
    obtain ⟨ts, hts, rfl⟩ := map_eq_ok_iff.mp h
    exact Tree.ordered_list_iff.mpr (ordered_of_readTrees hts)
  | .obj members, room + 1 =>
    obtain ⟨ps, hps, rfl⟩ := map_eq_ok_iff.mp h
    exact Tree.ordered_map_ofPairs (ordered_of_readEntries hps)
  | .arr _, 0 | .obj _, 0 | .flawed _, _ => cases h

theorem ordered_of_readTrees {room : Nat} {items : List Json} {ts : List Tree}
    (h : readTrees room items = .ok ts) : ∀ t ∈ ts, t.Ordered := by
  match items with
  | [] =>
    simp only [readTrees, Except.ok.injEq] at h
    subst h
    simp
  | item :: items =>
    obtain ⟨t, ht, h⟩ := bind_eq_ok_iff.mp h
    obtain ⟨ts', hts, h⟩ := bind_eq_ok_iff.mp h
    cases h
    intro u hu
    rcases List.mem_cons.mp hu with rfl | hu
    · exact ordered_of_readTree ht
    · exact ordered_of_readTrees hts u hu

theorem ordered_of_readEntries {room : Nat} {members : List (Json.Name × Json)}
    {ps : List (String × Tree)} (h : readEntries room members = .ok ps) :
    ∀ p ∈ ps, p.2.Ordered := by
  match members with
  | [] =>
    simp only [readEntries, Except.ok.injEq] at h
    subst h
    simp
  | (name, value) :: members =>
    obtain ⟨key, -, h⟩ := bind_eq_ok_iff.mp h
    obtain ⟨t, ht, h⟩ := bind_eq_ok_iff.mp h
    obtain ⟨ts, hts, h⟩ := bind_eq_ok_iff.mp h
    cases h
    intro p hp
    rcases List.mem_cons.mp hp with rfl | hp
    · exact ordered_of_readTree ht
    · exact ordered_of_readEntries hts p hp

end

/-! ## Values and payloads -/

def readValueWithin (room : Nat) (j : Json) : Outcome Value :=
  match h : readTree room j with
  | .ok t => .ok ⟨t, ordered_of_readTree h⟩
  | .error fault => .error fault

section Value

variable {room : Nat} {j : Json}

theorem readValueWithin_eq_ok {t : Tree} (h : readTree room j = .ok t) :
    readValueWithin room j = .ok ⟨t, ordered_of_readTree h⟩ := by
  unfold readValueWithin
  split
  next u hu =>
    obtain rfl := Except.ok.inj (hu.symm.trans h)
    rfl
  next fault herror => cases herror.symm.trans h

theorem readValueWithin_eq_error {fault : Fault} (h : readTree room j = .error fault) :
    readValueWithin room j = .error fault := by
  unfold readValueWithin
  split
  next t ht => cases ht.symm.trans h
  next fault' herror => rw [Except.error.inj (herror.symm.trans h)]

end Value

def readValue (j : Json) : Outcome Value :=
  readValueWithin maxDepth j

/-- Reads a payload, the object itself included in the room. -/
def readPayloadWithin (room : Nat) (j : Json) : Outcome Payload :=
  match j with
  | .obj members =>
    match room with
    | 0 => .error (.broken (b := .tooDeep))
    | room + 1 =>
      match h : readEntries room members with
      | .ok ps => .ok ⟨Entries.ofPairs ps, Tree.ordered_map_ofPairs (ordered_of_readEntries h)⟩
      | .error fault => .error fault
  | j => wrongKind .map j

section Payload

variable {room : Nat} {members : List (Json.Name × Json)}

theorem readPayloadWithin_eq_ok {ps : List (String × Tree)}
    (h : readEntries room members = .ok ps) :
    readPayloadWithin (room + 1) (.obj members) =
      .ok ⟨Entries.ofPairs ps, Tree.ordered_map_ofPairs (ordered_of_readEntries h)⟩ := by
  unfold readPayloadWithin
  dsimp only
  split
  next qs hqs =>
    obtain rfl := Except.ok.inj (hqs.symm.trans h)
    rfl
  next fault herror => cases herror.symm.trans h

theorem readPayloadWithin_eq_error {fault : Fault} (h : readEntries room members = .error fault) :
    readPayloadWithin (room + 1) (.obj members) = .error fault := by
  unfold readPayloadWithin
  dsimp only
  split
  next ps hps => cases hps.symm.trans h
  next fault' herror => rw [Except.error.inj (herror.symm.trans h)]

end Payload

def readPayload (j : Json) : Outcome Payload :=
  readPayloadWithin maxDepth j

def writeValue (v : Value) : Json :=
  writeTree v.tree

def writePayload (p : Payload) : Json :=
  .obj (writeEntries p.entries)

end FlowEvents.Wire
