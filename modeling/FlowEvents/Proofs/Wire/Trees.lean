import FlowEvents.Proofs.Decimal.ReadBack
import FlowEvents.Proofs.Json.RoundTrip
import FlowEvents.Proofs.Payload.Settled
import FlowEvents.Wire.Payload

/-! # A payload value is read as it was written

Nothing on the wire says which kind of value was written, so each kind must write JSON that no
other kind writes: an integer has a literal without point and exponent, a number always has one of
them.  The room decides the rest: a value that is nested no deeper is read settled, a deeper one is
refused, whatever else it holds.
-/

namespace FlowEvents.Wire

open Decimal (Binary64 Literal)

/-! ## Numbers -/

theorem integer?_ofInt (n : Int) : (Literal.ofInt n).integer? = some n := by
  unfold Literal.integer? Literal.ofInt
  rw [if_neg (by simp; omega)]
  by_cases h : n < 0
  · simp only [h, decide_true, if_true]
    congr 1
    omega
  · simp only [h, decide_false, Bool.false_eq_true, if_false]
    congr 1
    omega

theorem ofLiteral?_ofInt {n : Int} (hlow : -2 ^ 63 ≤ n) (hhigh : n < 2 ^ 64) :
    Number.ofLiteral? (Literal.ofInt n) = some (.integer n) := by
  unfold Number.ofLiteral?
  rw [integer?_ofInt]
  exact if_pos ⟨hlow, hhigh⟩

theorem ofLiteral?_readsBack {x : Binary64} {l : Literal} (h : x.ReadsBack l) :
    Number.ofLiteral? l = some (.float x) := by
  unfold Number.ofLiteral?
  rw [h.1, h.2]
  rfl

theorem readTree_int (room : Nat) (n : Int64) :
    readTree room (writeInt n.toInt) = .ok (.int n) := by
  have hlow := n.le_toInt
  have hhigh := n.toInt_lt
  rw [writeInt, readTree, ofLiteral?_ofInt hlow (by omega)]
  show ranged (numberTree? (.integer n.toInt)) = _
  rw [numberTree?, if_pos hhigh, Int64.ofInt_toInt]
  rfl

theorem readTree_float (room : Nat) (x : Binary64) :
    readTree room (writeTree (.float x)) = .ok (Tree.float x).settled := by
  rw [writeTree, Tree.settled]
  cases hl : x.literal? with
  | none =>
      rw [x.literal?_eq_none.mp hl]
      rfl
  | some l =>
      -- a literal is there only for finite numbers
      have hfinite : x.isFinite = true := by
        by_contra hfalse
        rw [x.literal?_eq_none.mpr (Bool.not_eq_true _ ▸ hfalse)] at hl
        cases hl
      show ranged (Number.ofLiteral? l >>= numberTree?) = _
      rw [ofLiteral?_readsBack (Binary64.readsBack_of_literal? hl), if_pos hfinite]
      rfl

/-! ## Texts -/

mutual

theorem printable_writeTree : ∀ t : Tree, (writeTree t).Printable
  | .null => trivial
  | .bool _ => trivial
  | .int _ => trivial
  | .str _ => trivial
  | .float x => by
      rw [writeTree]
      cases x.literal? with
      | none => trivial
      | some l => trivial
  | .list items => allPrintable_writeTrees items
  | .map entries => membersPrintable_writeEntries entries

theorem allPrintable_writeTrees : ∀ ts : List Tree, Json.AllPrintable (writeTrees ts)
  | [] => trivial
  | t :: ts => ⟨printable_writeTree t, allPrintable_writeTrees ts⟩

theorem membersPrintable_writeEntries :
    ∀ es : List (String × Tree), Json.MembersPrintable (writeEntries es)
  | [] => trivial
  | (key, t) :: es => ⟨⟨key, rfl⟩, printable_writeTree t, membersPrintable_writeEntries es⟩

end

/-! ## Trees -/

section Room

variable {α β γ : Type} {room : Nat}

/-- What is nested so deep, if there is room for it. -/
def within (room depth : Nat) (x : α) : Outcome α :=
  if depth ≤ room then .ok x else .error (.broken (b := .tooDeep))

theorem within_of_le {depth : Nat} {x : α} (h : depth ≤ room) : within room depth x = .ok x :=
  if_pos h

theorem within_of_lt {depth : Nat} {x : α} (h : room < depth) :
    within room depth x = .error (.broken (b := .tooDeep)) :=
  if_neg (Nat.not_le.mpr h)

theorem map_within (g : α → β) (x : α) (depth : Nat) :
    (within room depth x).map g = within room depth (g x) := by
  rcases Nat.lt_or_ge room depth with h | h
  · rw [within_of_lt h, within_of_lt h]
    rfl
  · rw [within_of_le h, within_of_le h]
    rfl

/-- What is nested once more needs more room by one. -/
theorem nested_within (g : α → β) (x : α) (depth : Nat) :
    (within room depth x).map g = within (room + 1) (depth + 1) (g x) := by
  rw [map_within]
  rcases Nat.lt_or_ge room depth with h | h
  · rw [within_of_lt h, within_of_lt (Nat.succ_lt_succ h)]
  · rw [within_of_le h, within_of_le (Nat.succ_le_succ h)]

/-- Two things stand beside one another if there is room for either. -/
theorem both_within (f : α → β → γ) (x : α) (y : β) (depth depth' : Nat) :
    (within room depth x >>= fun x => within room depth' y >>= fun y => .ok (f x y)) =
      within room (max depth depth') (f x y) := by
  rcases Nat.lt_or_ge room depth with h | h
  · rw [within_of_lt h, within_of_lt (Nat.lt_of_lt_of_le h (Nat.le_max_left _ _))]
    rfl
  · rw [within_of_le h]
    rcases Nat.lt_or_ge room depth' with h' | h'
    · rw [within_of_lt h', within_of_lt (Nat.lt_of_lt_of_le h' (Nat.le_max_right _ _))]
      rfl
    · rw [within_of_le h', within_of_le (Nat.max_le.mpr ⟨h, h'⟩)]
      rfl

end Room

mutual

theorem readTree_writeTree :
    ∀ (t : Tree) (room : Nat), t.Ordered →
      readTree room (writeTree t) = within room t.depth t.settled
  | .null, room, _ => rfl
  | .bool _, room, _ => rfl
  | .int n, room, _ => readTree_int room n
  | .str _, room, _ => rfl
  | .float x, room, _ => readTree_float room x
  | .list items, 0, _ => rfl
  | .list items, room + 1, h => by
      rw [writeTree, readTree, readTrees_writeTrees items room h, nested_within, Tree.depth,
        Tree.settled]
  | .map entries, 0, _ => rfl
  | .map entries, room + 1, h => by
      have hsame :=
        Entries.ofPairs_eq_of_perm (List.Perm.refl _) (Tree.ascending_entriesSettled h.1)
      rw [writeTree, readTree, readEntries_writeEntries entries room h.2, nested_within, hsame,
        Tree.depth, Tree.settled]

theorem readTrees_writeTrees :
    ∀ (ts : List Tree) (room : Nat), Tree.AllOrdered ts →
      readTrees room (writeTrees ts) = within room (Tree.allDepth ts) (Tree.allSettled ts)
  | [], room, _ => rfl
  | t :: ts, room, h => by
      rw [writeTrees, readTrees, readTree_writeTree t room h.1,
        readTrees_writeTrees ts room h.2, Tree.allDepth, Tree.allSettled]
      exact both_within List.cons t.settled (Tree.allSettled ts) t.depth (Tree.allDepth ts)

theorem readEntries_writeEntries :
    ∀ (es : List (String × Tree)) (room : Nat), Tree.EntriesOrdered es →
      readEntries room (writeEntries es) =
        within room (Tree.entriesDepth es) (Tree.entriesSettled es)
  | [], room, _ => rfl
  | (key, t) :: es, room, h => by
      rw [writeEntries, Json.member, readEntries, readTree_writeTree t room h.1,
        readEntries_writeEntries es room h.2, Tree.entriesDepth, Tree.entriesSettled, readName]
      exact both_within (fun t ts => (key, t) :: ts) t.settled (Tree.entriesSettled es) t.depth
        (Tree.entriesDepth es)

end

/-! ## Values and payloads -/

theorem readValueWithin_write (room : Nat) (v : Value) :
    readValueWithin room (writeValue v) = within room v.tree.depth v.settled := by
  have htree := readTree_writeTree v.tree room v.ordered
  rcases Nat.lt_or_ge room v.tree.depth with hd | hd
  · rw [within_of_lt hd] at htree ⊢
    exact readValueWithin_eq_error htree
  · rw [within_of_le hd] at htree ⊢
    exact readValueWithin_eq_ok htree

/-- A payload is read from its entries in whatever order they were written. -/
theorem readPayloadWithin_write (room : Nat) (p : Payload) {entries : List (String × Tree)}
    (h : entries.Perm p.entries) :
    readPayloadWithin (room + 1) (.obj (writeEntries entries)) =
      within room (Tree.entriesDepth p.entries) p.settled := by
  have hordered : Tree.EntriesOrdered entries := by
    rw [Tree.entriesOrdered_iff]
    intro e he
    exact Tree.entriesOrdered_iff.mp p.ordered.2 e (h.mem_iff.mp he)
  -- the entries are read in the order in which they were written, and put in theirs afterwards
  have hread := readEntries_writeEntries entries room hordered
  have hdepth := Tree.entriesDepth_perm (n := room) h
  rcases Nat.lt_or_ge room (Tree.entriesDepth p.entries) with hd | hd
  · rw [within_of_lt (Nat.not_le.mp (mt hdepth.mp (Nat.not_le.mpr hd)))] at hread
    rw [within_of_lt hd]
    exact readPayloadWithin_eq_error hread
  · rw [within_of_le (hdepth.mpr hd)] at hread
    rw [within_of_le hd, readPayloadWithin_eq_ok hread]
    congr 1
    apply Payload.ext
    exact Entries.ofPairs_eq_of_perm (Tree.entriesSettled_perm h)
      (Tree.ascending_entriesSettled p.ordered.1)

end FlowEvents.Wire
