import FlowEvents.Proofs.Event.Writes
import FlowEvents.Proofs.Payload.Equality
import FlowEvents.Proofs.Wire.Kinds

/-! # A payload is its entries

An object is read as a payload just as if its members were attached to an event one after the
other, so of members with the same name the last one wins.  And what a payload is written as depends
on nothing but what is found in it: the way it came about leaves no trace in the text, in which
every key stands once and in its place.  What is found at the end of a path into the payload is what
the text has there, so no key of a map inside gets lost either, and none is added.
-/

namespace FlowEvents

/-! ## Names in order -/

namespace Json

mutual

/-- The names of every object in the value ascend strictly. -/
def NamesAscend : Json → Prop
  | arr items => AllNamesAscend items
  | obj members =>
    (∃ names : List String, members.map Prod.fst = names.map .plain ∧ names.Pairwise (· < ·)) ∧
      MembersNamesAscend members
  | _ => True

def AllNamesAscend : List Json → Prop
  | [] => True
  | item :: items => NamesAscend item ∧ AllNamesAscend items

def MembersNamesAscend : List (Json.Name × Json) → Prop
  | [] => True
  | (_, value) :: members => NamesAscend value ∧ MembersNamesAscend members

end

end Json

/-! ## Paths -/

/-- One step down: to what stands under a key, or to an item. -/
inductive Hop where
  | key (k : String)
  | item (i : Nat)

def Json.child? : Json → Hop → Option Json
  | .obj members, .key k => Json.last? k members
  | .arr items, .item i => items[i]?
  | _, _ => none

def Tree.child? : Tree → Hop → Option Tree
  | .map entries, .key k => entries.lookup k
  | .list items, .item i => items[i]?
  | _, _ => none

/-- What stands at the end of a path. -/
def Json.at? : Json → List Hop → Option Json
  | j, [] => some j
  | j, hop :: path => j.child? hop >>= fun j => at? j path

def Tree.at? : Tree → List Hop → Option Tree
  | t, [] => some t
  | t, hop :: path => t.child? hop >>= fun t => at? t path

namespace Wire

theorem writeEntries_eq (es : List (String × Tree)) :
    writeEntries es = es.map fun e => Json.member e.1 (writeTree e.2) := by
  induction es with
  | nil => rfl
  | cons e es ih => rw [writeEntries, ih, List.map_cons]

mutual

theorem namesAscend_writeTree : ∀ {t : Tree}, t.Ordered → (writeTree t).NamesAscend
  | .null, _ => trivial
  | .bool _, _ => trivial
  | .int _, _ => trivial
  | .str _, _ => trivial
  | .float x, _ => by
      rw [writeTree]
      cases x.literal? with
      | none => trivial
      | some l => trivial
  | .list items, h => allNamesAscend_writeTrees h
  | .map entries, h => by
      refine ⟨⟨entries.map Prod.fst, ?_, List.pairwise_map.mpr h.1⟩,
        membersNamesAscend_writeEntries h.2⟩
      rw [writeEntries_eq, List.map_map, List.map_map]
      rfl

theorem allNamesAscend_writeTrees :
    ∀ {ts : List Tree}, Tree.AllOrdered ts → Json.AllNamesAscend (writeTrees ts)
  | [], _ => trivial
  | _ :: _, h => ⟨namesAscend_writeTree h.1, allNamesAscend_writeTrees h.2⟩

theorem membersNamesAscend_writeEntries :
    ∀ {es : List (String × Tree)}, Tree.EntriesOrdered es →
      Json.MembersNamesAscend (writeEntries es)
  | [], _ => trivial
  | (_, _) :: _, h => ⟨namesAscend_writeTree h.1, membersNamesAscend_writeEntries h.2⟩

end

theorem lookup_writeEntries (es : List (String × Tree)) (k : String) :
    (writeEntries es).lookup (.plain k) = (es.lookup k).map writeTree := by
  induction es with
  | nil => rfl
  | cons e es ih =>
      obtain ⟨l, t⟩ := e
      rw [writeEntries, Json.member, List.lookup_cons, List.lookup_cons, ih]
      by_cases h : k = l
      · simp [h]
      · have hname : (Json.Name.plain k == .plain l) = false := beq_false_of_ne (by simpa using h)
        rw [hname, beq_false_of_ne h]

/-- Where the keys ascend, the last entry of a key is the only one. -/
theorem last?_writeEntries {es : List (String × Tree)} (h : Entries.Ascending es) (k : String) :
    Json.last? k (writeEntries es) = (es.lookup k).map writeTree := by
  have hsame := Entries.ofPairs_eq_of_perm (List.Perm.refl _) h
  have hreverse : (writeEntries es).reverse = writeEntries es.reverse := by
    rw [writeEntries_eq, writeEntries_eq, List.map_reverse]
  rw [Json.last?, hreverse, lookup_writeEntries, ← Entries.lookup_ofPairs, hsame]

/-- Under a key stands what is found in the payload, and nothing else. -/
theorem last?_writePayload (p : Payload) (k : String) :
    Json.last? k (writeEntries p.entries) = (p.get? k).map writeValue := by
  rw [last?_writeEntries p.ordered.1, ← Payload.map_tree_get?, Option.map_map]
  rfl

theorem writeTrees_eq (ts : List Tree) : writeTrees ts = ts.map writeTree := by
  induction ts with
  | nil => rfl
  | cons t ts ih => rw [writeTrees, ih, List.map_cons]

theorem child?_writeTree {t : Tree} (h : t.Ordered) (hop : Hop) :
    (writeTree t).child? hop = (t.child? hop).map writeTree := by
  cases t with
  | map entries =>
      cases hop with
      | key k => exact last?_writeEntries h.1 k
      | item i => rfl
  | list items =>
      cases hop with
      | key k => rfl
      | item i =>
          show (writeTrees items)[i]? = items[i]?.map writeTree
          rw [writeTrees_eq, List.getElem?_map]
  | float x =>
      rw [writeTree]
      cases x.literal? <;> rfl
  | null | bool | int | str => rfl

theorem ordered_child? {t u : Tree} (h : t.Ordered) {hop : Hop} (hu : t.child? hop = some u) :
    u.Ordered := by
  cases t with
  | map entries =>
      cases hop with
      | key k => exact (Tree.ordered_map_iff.mp h).2 (k, u) (Entries.mem_of_lookup hu)
      | item i => cases hu
  | list items =>
      cases hop with
      | key k => cases hu
      | item i => exact Tree.ordered_list_iff.mp h u (List.mem_of_getElem? hu)
  | null | bool | int | float | str => cases hu

/-- At the end of every path stands what the value has there. -/
theorem at?_writeTree {t : Tree} (h : t.Ordered) (path : List Hop) :
    (writeTree t).at? path = (t.at? path).map writeTree := by
  induction path generalizing t with
  | nil => rfl
  | cons hop path ih =>
      rw [Json.at?, Tree.at?, child?_writeTree h]
      cases hchild : t.child? hop with
      | none => rfl
      | some u => exact ih (ordered_child? h hchild)

end Wire

/-! ## Members as edits -/

theorem Payload.entries_ofPairs (pairs : List (String × Value)) :
    (ofPairs pairs).entries = Entries.ofPairs (pairs.map fun kv => (kv.1, kv.2.tree)) := by
  induction pairs using List.reverseRecOn with
  | nil => rfl
  | append_singleton pairs kv ih =>
      rw [ofPairs_concat, List.map_append, List.map_singleton, Entries.ofPairs_concat, ← ih]
      rfl

namespace Event

/-- The edits that attach values one after the other. -/
def attachments (pairs : List (String × Value)) : List Edit :=
  pairs.map fun kv => .attach kv.1 kv.2

theorem applyAll_attachments (e : Event) (pairs : List (String × Value)) :
    ({ e with payload := .empty }.applyAll (attachments pairs)).payload = .ofPairs pairs := by
  induction pairs using List.reverseRecOn with
  | nil => rfl
  | append_singleton pairs kv ih =>
      rw [attachments, List.map_append, List.map_singleton, applyAll_concat,
        Payload.ofPairs_concat, ← ih]
      rfl

end Event

namespace Wire

/-- Reads the values of the members one after the other. -/
def readPairs (room : Nat) (members : List (String × Json)) : Outcome (List (String × Value)) :=
  members.mapM fun m => (readValueWithin room m.2).map fun v => (m.1, v)

theorem readPairs_cons (room : Nat) (name : String) (value : Json)
    (members : List (String × Json)) :
    readPairs room ((name, value) :: members) =
      readValueWithin room value >>= fun v => readPairs room members >>= fun pairs =>
        .ok ((name, v) :: pairs) := by
  unfold readPairs
  rw [List.mapM_cons]
  cases readValueWithin room value <;> rfl

theorem map_bind {α β γ : Type} (outcome : Outcome α) (f : α → β) (g : β → Outcome γ) :
    outcome.map f >>= g = outcome >>= fun a => g (f a) := by
  cases outcome <;> rfl

theorem readValueWithin_map_tree (room : Nat) (j : Json) :
    (readValueWithin room j).map Value.tree = readTree room j := by
  cases h : readTree room j with
  | error fault =>
      rw [readValueWithin_eq_error h]
      rfl
  | ok t =>
      rw [readValueWithin_eq_ok h]
      rfl

/-- The members are read as the values are, one by one. -/
theorem readEntries_named (room : Nat) (members : List (String × Json)) :
    readEntries room (Slots.named members) =
      (readPairs room members).map fun pairs => pairs.map fun kv => (kv.1, kv.2.tree) := by
  induction members with
  | nil => rfl
  | cons m members ih =>
      obtain ⟨name, value⟩ := m
      have hentries : readEntries room (Slots.named ((name, value) :: members)) =
          readTree room value >>= fun t => readEntries room (Slots.named members) >>= fun ts =>
            .ok ((name, t) :: ts) := rfl
      rw [hentries, readPairs_cons, ← readValueWithin_map_tree, map_bind, ih]
      cases readValueWithin room value with
      | error fault => rfl
      | ok v => cases readPairs room members <;> rfl

/-- A payload is read by attaching what the members are read as, in text order. -/
theorem readPayloadWithin_members (e : Event) (room : Nat) (members : List (String × Json)) :
    readPayloadWithin (room + 1) (.ofMembers members) =
      (readPairs room members).map fun pairs =>
        ({ e with payload := .empty }.applyAll (Event.attachments pairs)).payload := by
  have hobject : Json.ofMembers members = .obj (Slots.named members) := rfl
  have hentries := readEntries_named room members
  rw [hobject]
  cases hpairs : readPairs room members with
  | error fault =>
      rw [hpairs] at hentries
      exact readPayloadWithin_eq_error hentries
  | ok pairs =>
      rw [hpairs] at hentries
      rw [readPayloadWithin_eq_ok hentries, Except.map, Event.applyAll_attachments]
      congr 1
      exact Payload.ext (Payload.entries_ofPairs pairs).symm

/-- **The last write wins.** What is found in a payload is what the last write to the key left
there; an object is read as a payload by attaching its members in text order; and a payload is
written as what is found in it, whatever its history, with every key once and in order, at every
depth, and with what the payload has at the end of every path. -/
theorem last_write_wins :
    (∀ e : Event, e.LastWriteWins) ∧
    (∀ (e : Event) (room : Nat) (members : List (String × Json)),
      readPayloadWithin (room + 1) (.ofMembers members) =
        (readPairs room members).map fun pairs =>
          ({ e with payload := .empty }.applyAll (Event.attachments pairs)).payload) ∧
    (∀ text j, Holds text j → decode readPayload text = readPayloadWithin maxDepth j) ∧
    (∀ p q : Payload, (∀ k, p.get? k = q.get? k) →
      (writePayload p).print = (writePayload q).print ∧
        ∀ e : Event, (writeEvent { e with payload := p }).print =
          (writeEvent { e with payload := q }).print) ∧
    (∀ p : Payload, ∃ members, Json.parse (writePayload p).print.toList = (.obj members, []) ∧
      (Json.obj members).NamesAscend ∧
        (∀ k, Json.last? k members = (p.get? k).map writeValue) ∧
        ∀ path, (Json.obj members).at? path = (p.toValue.tree.at? path).map writeTree) := by
  refine ⟨Event.lastWriteWins, readPayloadWithin_members,
    fun text j htext => htext.decode_eq readPayload, ?_, ?_⟩
  · intro p q h
    rw [Payload.ext_get? h]
    exact ⟨rfl, fun _ => rfl⟩
  · intro p
    have hprint : (writePayload p).Printable := membersPrintable_writeEntries p.entries
    refine ⟨writeEntries p.entries, ?_, namesAscend_writeTree p.ordered, last?_writePayload p,
      at?_writeTree p.ordered⟩
    rw [Json.print, String.toList_ofList, Json.parse_text hprint]
    rfl

/-- A key is overwritten around a replacement of the payload, another comes and goes. -/
def rewrites : List Event.Edit :=
  [.insert "n" (.int 1), .replacePayload .empty, .attach "m" .null, .attach "n" (.int 2),
    .insert "m" (.str "x"), .remove "m"]

/-- An object in which a key stands twice. -/
def repeated : List (String × Json) :=
  [("n", .num (.ofInt 1)), ("m", .null), ("n", .num (.ofInt 2))]

/-- What is left is found, written and read just as after a single write. -/
theorem last_write_wins_rewrites :
    (report.applyAll rewrites).payload.get? "n" = some (.int 2) ∧
      ((report.applyAll rewrites).apply (.insert "m" .null)).2 = .previous none ∧
      (writePayload (report.applyAll rewrites).payload).print =
        (writePayload (Payload.empty.insert "n" (.int 2))).print ∧
      decode readPayload "\x7b\"n\":1,\"m\":null,\"n\":2\x7d" =
        .ok ({ report with payload := .empty }.applyAll
          [.attach "n" (.int 1), .attach "m" .null, .attach "n" (.int 2)]).payload := by
  obtain ⟨hwrites, hread, htext, hsame, -⟩ := last_write_wins
  refine ⟨?_, ?_, ?_, ?_⟩
  · rw [(hwrites report).found]
    rfl
  · rw [(hwrites report).inserted]
    rfl
  · refine (hsame _ _ ?_).1
    intro k
    rw [(hwrites report).found, Payload.get?_insert]
    by_cases hn : k = "n"
    · subst hn
      rfl
    · by_cases hm : k = "m"
      · subst hm
        rfl
      · simp only [rewrites, Event.lastLeft?, Event.Edit.leaves?, List.reverse_cons, hn, hm,
          List.reverse_nil, List.nil_append, List.cons_append, List.findSome?_cons, if_false]
        rfl
  · have hholds : Holds (Json.ofMembers repeated).print (.ofMembers repeated) :=
      holds_print ⟨⟨_, rfl⟩, trivial, ⟨_, rfl⟩, trivial, ⟨_, rfl⟩, trivial, trivial⟩
    have hpairs : readPairs 126 repeated = .ok [("n", .int 1), ("m", .null), ("n", .int 2)] := rfl
    rw [show "\x7b\"n\":1,\"m\":null,\"n\":2\x7d" = (Json.ofMembers repeated).print from rfl,
      htext _ _ hholds, maxDepth, hread report 126 repeated, hpairs]
    rfl

end Wire

end FlowEvents
