import FlowEvents.Proofs.Decimal.Range
import FlowEvents.Proofs.Wire.Members

/-! # A payload value is read by its kind

`Reads` tells what a JSON value is read as, kind by kind and without a word about order of trial,
room or failure.  Whatever the reader gives is what `Reads` tells (`reads_of_readTree`), there is
at most one such tree (`Reads.unique`), and within the limits of a text the reader always gives one
(`exists_readTree`).

An object may say the same key as often as it likes; its last occurrence is the one that counts.
-/

namespace FlowEvents

open Decimal (Binary64 Literal)

/-! ## Limits -/

namespace Json

mutual

/-- How many arrays and objects are nested in one another. -/
def depth : Json → Nat
  | arr items => itemsDepth items + 1
  | obj members => membersDepth members + 1
  | _ => 0

def itemsDepth : List Json → Nat
  | [] => 0
  | item :: items => max (depth item) (itemsDepth items)

def membersDepth : List (Name × Json) → Nat
  | [] => 0
  | (_, value) :: members => max (depth value) (membersDepth members)

end

mutual

/-- The number literals in the value, however deep. -/
def numbers : Json → List Literal
  | num l => [l]
  | arr items => itemsNumbers items
  | obj members => membersNumbers members
  | _ => []

def itemsNumbers : List Json → List Literal
  | [] => []
  | item :: items => numbers item ++ itemsNumbers items

def membersNumbers : List (Name × Json) → List Literal
  | [] => []
  | (_, value) :: members => numbers value ++ membersNumbers members

end

/-- The value of the last member of a name. -/
def last? (name : String) (members : List (Name × Json)) : Option Json :=
  members.reverse.lookup (.plain name)

theorem depth_le_of_mem {items : List Json} {j : Json} (h : j ∈ items) :
    j.depth ≤ itemsDepth items := by
  induction items with
  | nil => cases h
  | cons item items ih =>
      rw [itemsDepth]
      rcases List.mem_cons.mp h with rfl | h
      · exact Nat.le_max_left _ _
      · exact Nat.le_trans (ih h) (Nat.le_max_right _ _)

theorem depth_le_of_last? {name : String} {members : List (Name × Json)} {j : Json}
    (h : last? name members = some j) : j.depth ≤ membersDepth members := by
  have hmem : (Name.plain name, j) ∈ members := by
    obtain ⟨front, back, hsplit, -⟩ := List.lookup_eq_some_iff.mp h
    rw [← List.mem_reverse, hsplit]
    exact List.mem_append_right _ List.mem_cons_self
  clear h
  induction members with
  | nil => cases hmem
  | cons first members ih =>
      rw [membersDepth]
      rcases List.mem_cons.mp hmem with rfl | hmem
      · exact Nat.le_max_left _ _
      · exact Nat.le_trans (ih hmem) (Nat.le_max_right _ _)

end Json

namespace Wire

/-- A whole value that a text may hold: it is nested no deeper than a text may be, and every number
in it is within the range of the floating-point ones. -/
structure WithinLimits (j : Json) : Prop where
  printable : j.Printable
  depth_le : j.depth ≤ maxDepth
  inRange : ∀ l ∈ j.numbers, l.InRange

/-! ## What a value is read as -/

/-- The tree that a JSON value is read as. -/
inductive Reads : Json → Tree → Prop
  | null : Reads .null .null
  | bool (b : Bool) : Reads (.bool b) (.bool b)
  | int (l : Literal) (n : Int64) (h : l.integer? = some n.toInt) : Reads (.num l) (.int n)
  | float (l : Literal) (x : Binary64) (hint : ∀ n : Int64, l.integer? ≠ some n.toInt)
      (h : l.toBinary64? = some x) : Reads (.num l) (.float x)
  | str (s : String) : Reads (.str s) (.str s)
  | list (items : List Json) (ts : List Tree) (hlength : items.length = ts.length)
      (hitems : ∀ (i : Nat) (j : Json) (t : Tree), items[i]? = some j → ts[i]? = some t →
        Reads j t) : Reads (.arr items) (.list ts)
  /-- Under each key of the object stands what its last occurrence is read as. -/
  | map (members : List (Json.Name × Json)) (entries : List (String × Tree))
      (horder : Entries.Ascending entries)
      (hkeys : ∀ k, (entries.lookup k).isSome = (Json.last? k members).isSome)
      (hvalues : ∀ (k : String) (j : Json) (t : Tree), Json.last? k members = some j →
        entries.lookup k = some t → Reads j t) : Reads (.obj members) (.map entries)

variable {j : Json} {t : Tree} {room : Nat}

theorem Reads.unique {t' : Tree} (h : Reads j t) (h' : Reads j t') : t = t' := by
  induction h generalizing t' with
  | null => cases h'; rfl
  | bool b => cases h'; rfl
  | str s => cases h'; rfl
  | int l n h =>
      cases h' with
      | int _ n' hn' => rw [Int64.toInt_inj.mp (Option.some.inj (h.symm.trans hn'))]
      | float _ x hint _ => exact absurd h (hint n)
  | float l x hint h =>
      cases h' with
      | int _ n hn => exact absurd hn (hint n)
      | float _ y _ hy => rw [Option.some.inj (h.symm.trans hy)]
  | list items ts hlength hitems ih =>
      cases h' with
      | list _ ts' hlength' hitems' =>
          congr 1
          refine List.ext_getElem (hlength.symm.trans hlength') fun i hi hi' => ?_
          have hj := List.getElem?_eq_getElem (hlength ▸ hi : i < items.length)
          exact ih i _ _ hj (List.getElem?_eq_getElem hi)
            (hitems' i _ _ hj (List.getElem?_eq_getElem hi'))
  | map members entries horder hkeys hvalues ih =>
      cases h' with
      | map _ entries' horder' hkeys' hvalues' =>
          congr 1
          refine horder.ext_lookup horder' fun k => ?_
          rcases Entries.both_or_neither (hkeys k) with ⟨ht, hj⟩ | ⟨t, j, ht, hj⟩
          · rcases Entries.both_or_neither (hkeys' k) with ⟨ht', -⟩ | ⟨t', j', -, hj'⟩
            · rw [ht, ht']
            · cases hj.symm.trans hj'
          · rcases Entries.both_or_neither (hkeys' k) with ⟨-, hj'⟩ | ⟨t', j', ht', -⟩
            · cases hj.symm.trans hj'
            · rw [ht, ht', ih k j t hj ht (hvalues' k j t' hj ht')]

/-! ## What is read keeps the limits -/

/-- Every key of the map comes from the object. -/
theorem exists_last? {members : List (Json.Name × Json)} {entries : List (String × Tree)}
    {k : String} (horder : Entries.Ascending entries)
    (hkeys : ∀ k, (entries.lookup k).isSome = (Json.last? k members).isSome)
    (h : (k, t) ∈ entries) : entries.lookup k = some t ∧ ∃ j, Json.last? k members = some j := by
  have ht := horder.lookup_of_mem h
  have hsome := hkeys k
  rw [ht, Option.isSome_some] at hsome
  exact ⟨ht, Option.isSome_iff_exists.mp hsome.symm⟩

theorem Reads.isFinite (h : Reads j t) : ∀ x ∈ t.floats, x.isFinite = true := by
  induction h with
  | null => simp [Tree.floats]
  | bool b => simp [Tree.floats]
  | int l n h => simp [Tree.floats]
  | str s => simp [Tree.floats]
  | float l x hint h =>
      intro y hy
      rw [List.mem_singleton.mp hy]
      exact Literal.isFinite_of_toBinary64? h
  | list items ts hlength hitems ih =>
      intro x hx
      obtain ⟨t, ht, hxt⟩ := Tree.mem_allFloats.mp hx
      obtain ⟨i, hi, rfl⟩ := List.mem_iff_getElem.mp ht
      have hj := List.getElem?_eq_getElem (hlength ▸ hi : i < items.length)
      exact ih i _ _ hj (List.getElem?_eq_getElem hi) x hxt
  | map members entries horder hkeys hvalues ih =>
      intro x hx
      obtain ⟨⟨k, t⟩, he, hxt⟩ := Tree.mem_entriesFloats.mp hx
      obtain ⟨ht, j, hj⟩ := exists_last? horder hkeys he
      exact ih k j t hj ht x hxt

theorem Reads.depth_le (h : Reads j t) : t.depth ≤ j.depth := by
  induction h with
  | null => exact Nat.le_refl _
  | bool b => exact Nat.le_refl _
  | int l n h => exact Nat.le_refl _
  | float l x hint h => exact Nat.le_refl _
  | str s => exact Nat.le_refl _
  | list items ts hlength hitems ih =>
      refine Nat.succ_le_succ (Tree.allDepth_le_iff.mpr fun t ht => ?_)
      obtain ⟨i, hi, rfl⟩ := List.mem_iff_getElem.mp ht
      have hlt : i < items.length := hlength ▸ hi
      exact Nat.le_trans (ih i _ _ (List.getElem?_eq_getElem hlt) (List.getElem?_eq_getElem hi))
        (Json.depth_le_of_mem (List.getElem_mem hlt))
  | map members entries horder hkeys hvalues ih =>
      refine Nat.succ_le_succ (Tree.entriesDepth_le_iff.mpr fun e he => ?_)
      obtain ⟨ht, j, hj⟩ := exists_last? horder hkeys he
      exact Nat.le_trans (ih e.1 j e.2 hj ht) (Json.depth_le_of_last? hj)

/-! ## Numbers -/

/-- An integer above the signed words is read as the number nearest to it. -/
theorem ofDecimal_toNat {n : Int} (hlow : 0 ≤ n) (hhigh : n < 2 ^ 64) :
    Binary64.ofDecimal false n.toNat 0 = (Literal.ofInt n).toBinary64? := by
  have hweighed : (Literal.ofInt n).weighed = (Literal.ofInt n).scaled := by
    have hlt : n.natAbs < 2 ^ 64 := by omega
    exact Literal.weighed_of_lt (Nat.lt_trans hlt (by decide +kernel))
  have hscaled : (Literal.ofInt n).scaled = ⟨n.toNat, 0⟩ := by
    have habs : n.natAbs = n.toNat := by omega
    show Decimal.Scaled.mk n.natAbs (0 - ((0 : Nat) : Int)) = _
    rw [habs, Int.natCast_zero, Int.sub_zero]
  have hsign : (Literal.ofInt n).negative = false := decide_eq_false (by omega)
  rw [Literal.toBinary64?, hweighed, hscaled, hsign]

/-- What a number is read as, whatever words it passes through. -/
theorem readTree_num (room : Nat) (l : Literal) :
    readTree room (.num l) =
      match l.integer? with
      | some n =>
        if -2 ^ 63 ≤ n ∧ n < 2 ^ 63 then .ok (.int (Int64.ofInt n))
        else ranged (l.toBinary64?.map Tree.float)
      | none => ranged (l.toBinary64?.map Tree.float) := by
  rw [readTree, Number.ofLiteral?]
  cases hn : l.integer? with
  | none => cases l.toBinary64? <;> rfl
  | some n =>
      obtain rfl := integer?_eq_some_iff.mp hn
      dsimp only
      by_cases hword : -2 ^ 63 ≤ n ∧ n < 2 ^ 64
      · rw [if_pos hword]
        show ranged (numberTree? (.integer n)) = _
        rw [numberTree?]
        by_cases hsigned : n < 2 ^ 63
        · rw [if_pos hsigned, if_pos ⟨hword.1, hsigned⟩]
          rfl
        · rw [if_neg hsigned, if_neg (fun h => hsigned h.2), ofDecimal_toNat (by omega) hword.2]
      · rw [if_neg hword, if_neg (fun h => hword ⟨h.1, by omega⟩)]
        cases (Literal.ofInt n).toBinary64? <;> rfl

theorem reads_num {l : Literal} (h : readTree room (.num l) = .ok t) : Reads (.num l) t := by
  rw [readTree_num] at h
  cases hn : l.integer? with
  | none =>
      rw [hn] at h
      obtain ⟨x, hx, rfl⟩ := Option.map_eq_some_iff.mp (ranged_eq_ok_iff.mp h)
      exact .float l x (by simp [hn]) hx
  | some n =>
      rw [hn] at h
      dsimp only at h
      split_ifs at h with hword
      · obtain rfl := Except.ok.inj h
        exact .int l _ (by rw [hn, Int64.toInt_ofInt_of_le (by omega) (by omega)])
      · obtain ⟨x, hx, rfl⟩ := Option.map_eq_some_iff.mp (ranged_eq_ok_iff.mp h)
        refine .float l x (fun m hm => hword ?_) hx
        rw [Option.some.inj (hn.symm.trans hm)]
        exact ⟨m.le_toInt, m.toInt_lt⟩

theorem exists_readTree_num {l : Literal} (h : l.InRange) :
    ∃ t, readTree room (.num l) = .ok t := by
  obtain ⟨x, hx⟩ := Literal.exists_toBinary64? h
  rw [readTree_num, hx]
  split
  · split_ifs
    · exact ⟨_, rfl⟩
    · exact ⟨_, rfl⟩
  · exact ⟨_, rfl⟩

/-! ## Whatever is read -/

/-- The members that were read, each with what it was read as. -/
theorem reads_obj {members : List (Json.Name × Json)} {ps : List (String × Tree)}
    (h : List.Forall₂ (fun m p => m.1 = .plain p.1 ∧ Reads m.2 p.2) members ps) :
    Reads (.obj members) (.map (Entries.ofPairs ps)) := by
  -- the last members of a name come first from behind
  have hlast : ∀ k, (Json.last? k members = none ∧ ps.reverse.lookup k = none) ∨
      ∃ j t, Json.last? k members = some j ∧ ps.reverse.lookup k = some t ∧ Reads j t :=
    Entries.lookup_forall₂ @Json.Name.plain.inj (List.forall₂_reverse_iff.mpr h)
  refine .map members _ (Entries.ascending_ofPairs ps) ?_ ?_
  · intro k
    rw [Entries.lookup_ofPairs]
    rcases hlast k with ⟨hj, ht⟩ | ⟨j, t, hj, ht, -⟩
    · rw [hj, ht]; rfl
    · rw [hj, ht]; rfl
  · intro k j t hj ht
    rw [Entries.lookup_ofPairs] at ht
    rcases hlast k with ⟨hnone, -⟩ | ⟨j', t', hj', ht', hreads⟩
    · cases hj.symm.trans hnone
    · rw [Option.some.inj (hj.symm.trans hj'), Option.some.inj (ht.symm.trans ht')]
      exact hreads

mutual

theorem reads_of_readTree : ∀ {j : Json} {room : Nat} {t : Tree},
    readTree room j = .ok t → Reads j t
  | .null, _, _, h => Except.ok.inj h ▸ .null
  | .bool b, _, _, h => Except.ok.inj h ▸ .bool b
  | .str s, _, _, h => Except.ok.inj h ▸ .str s
  | .num l, _, _, h => reads_num h
  | .arr items, 0, _, h => by cases h
  | .arr items, room + 1, t, h => by
      obtain ⟨ts, hts, rfl⟩ := map_eq_ok_iff.mp h
      have hreads := reads_of_readTrees hts
      refine .list items ts hreads.length_eq fun i j t hj ht => ?_
      obtain ⟨hi, rfl⟩ := List.getElem?_eq_some_iff.mp hj
      obtain ⟨hi', rfl⟩ := List.getElem?_eq_some_iff.mp ht
      exact hreads.get hi hi'
  | .obj members, 0, _, h => by cases h
  | .obj members, room + 1, t, h => by
      obtain ⟨ps, hps, rfl⟩ := map_eq_ok_iff.mp h
      exact reads_obj (reads_of_readEntries hps)
  | .flawed _, _, _, h => by cases h

theorem reads_of_readTrees : ∀ {items : List Json} {room : Nat} {ts : List Tree},
    readTrees room items = .ok ts → List.Forall₂ Reads items ts
  | [], _, _, h => Except.ok.inj h ▸ .nil
  | item :: items, room, ts, h => by
      obtain ⟨t, ht, h⟩ := bind_eq_ok_iff.mp h
      obtain ⟨ts', hts, h⟩ := bind_eq_ok_iff.mp h
      obtain rfl := Except.ok.inj h
      exact .cons (reads_of_readTree ht) (reads_of_readTrees hts)

theorem reads_of_readEntries : ∀ {members : List (Json.Name × Json)} {room : Nat}
    {ps : List (String × Tree)}, readEntries room members = .ok ps →
    List.Forall₂ (fun m p => m.1 = .plain p.1 ∧ Reads m.2 p.2) members ps
  | [], _, _, h => Except.ok.inj h ▸ .nil
  | (name, value) :: members, room, ps, h => by
      obtain ⟨key, hkey, h⟩ := bind_eq_ok_iff.mp h
      obtain ⟨t, ht, h⟩ := bind_eq_ok_iff.mp h
      obtain ⟨ps', hps, h⟩ := bind_eq_ok_iff.mp h
      obtain rfl := Except.ok.inj h
      exact .cons ⟨readName_eq_ok_iff.mp hkey, reads_of_readTree ht⟩ (reads_of_readEntries hps)

end

/-! ## Within the limits -/

mutual

theorem exists_readTree : ∀ {j : Json} {room : Nat}, j.Printable → j.depth ≤ room →
    (∀ l ∈ j.numbers, l.InRange) → ∃ t, readTree room j = .ok t
  | .null, _, _, _, _ => ⟨_, rfl⟩
  | .bool _, _, _, _, _ => ⟨_, rfl⟩
  | .str _, _, _, _, _ => ⟨_, rfl⟩
  | .num l, _, _, _, hrange => exists_readTree_num (hrange l (List.mem_singleton_self l))
  | .arr items, 0, _, hdepth, _ => absurd hdepth (Nat.not_succ_le_zero _)
  | .arr items, room + 1, hprint, hdepth, hrange => by
      obtain ⟨ts, hts⟩ := exists_readTrees hprint (Nat.le_of_succ_le_succ hdepth) hrange
      exact ⟨.list ts, by rw [readTree, hts]; rfl⟩
  | .obj members, 0, _, hdepth, _ => absurd hdepth (Nat.not_succ_le_zero _)
  | .obj members, room + 1, hprint, hdepth, hrange => by
      obtain ⟨ps, hps⟩ := exists_readEntries hprint (Nat.le_of_succ_le_succ hdepth) hrange
      exact ⟨.map (Entries.ofPairs ps), by rw [readTree, hps]; rfl⟩
  | .flawed _, _, hprint, _, _ => hprint.elim

theorem exists_readTrees : ∀ {items : List Json} {room : Nat}, Json.AllPrintable items →
    Json.itemsDepth items ≤ room → (∀ l ∈ Json.itemsNumbers items, l.InRange) →
    ∃ ts, readTrees room items = .ok ts
  | [], _, _, _, _ => ⟨[], rfl⟩
  | item :: items, room, hprint, hdepth, hrange => by
      obtain ⟨hfirst, hrest⟩ := List.forall_mem_append.mp hrange
      obtain ⟨t, ht⟩ := exists_readTree hprint.1 (Nat.max_le.mp hdepth).1 hfirst
      obtain ⟨ts, hts⟩ := exists_readTrees hprint.2 (Nat.max_le.mp hdepth).2 hrest
      exact ⟨t :: ts, by rw [readTrees, ht, hts]; rfl⟩

theorem exists_readEntries : ∀ {members : List (Json.Name × Json)} {room : Nat},
    Json.MembersPrintable members → Json.membersDepth members ≤ room →
    (∀ l ∈ Json.membersNumbers members, l.InRange) → ∃ ps, readEntries room members = .ok ps
  | [], _, _, _, _ => ⟨[], rfl⟩
  | (name, value) :: members, room, hprint, hdepth, hrange => by
      obtain ⟨key, rfl⟩ := hprint.1
      obtain ⟨hfirst, hrest⟩ := List.forall_mem_append.mp hrange
      obtain ⟨t, ht⟩ := exists_readTree hprint.2.1 (Nat.max_le.mp hdepth).1 hfirst
      obtain ⟨ps, hps⟩ := exists_readEntries hprint.2.2 (Nat.max_le.mp hdepth).2 hrest
      exact ⟨(key, t) :: ps, by rw [readEntries, ht, hps]; rfl⟩

end

/-! ## Texts -/

/-- **Kinds.** Within the limits of a text every JSON value is read as a payload value, and as the
one that the kinds of its parts determine: none is of no kind, and none is taken for another.  What
is read is written in a text that is read as the same value and so written as the same text. -/
theorem values_read_by_kind {j : Json} (hj : WithinLimits j) :
    ∃ v : Value, (∀ t, Reads j t ↔ t = v.tree) ∧
      (∀ text, Holds text j → decode readValue text = .ok v) ∧ Holds j.print j ∧
      decode readValue (writeValue v).print = .ok v ∧
      (decode readValue (writeValue v).print).map (fun w => (writeValue w).print) =
        .ok (writeValue v).print := by
  obtain ⟨t, ht⟩ := exists_readTree hj.printable hj.depth_le hj.inRange
  have hreads := reads_of_readTree ht
  have hback : decode readValue (writeValue ⟨t, ordered_of_readTree ht⟩).print =
      .ok ⟨t, ordered_of_readTree ht⟩ := by
    -- numbers that were read are finite, and nothing got deeper
    have hdepth : t.depth ≤ 127 := Nat.le_trans hreads.depth_le hj.depth_le
    rw [decode_writeValue, within_of_le hdepth]
    congr 1
    exact Value.ext (Tree.settled_eq_self hreads.isFinite)
  refine ⟨⟨t, ordered_of_readTree ht⟩, ?_, ?_, holds_print hj.printable, hback, ?_⟩
  · intro u
    constructor
    · exact fun hu => hu.unique hreads
    · rintro rfl
      exact hreads
  · intro text htext
    rw [htext.decode_eq]
    exact readValueWithin_eq_ok ht
  · rw [hback]
    rfl

/-- The object `{"at":[1],"in":[true,-0],"at":{"to":"x","n":9223372036854775808}}`. -/
def mixed : Json :=
  .ofMembers [("at", .arr [.num (.ofInt 1)]),
    ("in", .arr [.bool true, .num ⟨true, 0, [], none, Decimal.isDigit_nil⟩]),
    ("at", .ofMembers [("to", .str "x"), ("n", .num (.ofInt 9223372036854775808))])]

/-- The first value under the repeated key is gone; the negative zero and the integer above the
signed words are no integers. -/
theorem mixed_read_by_kind :
    WithinLimits mixed ∧ decode readValue mixed.print =
      .ok (.map [("in", .list [.bool true, .float ⟨0x8000000000000000⟩]),
        ("at", .map [("to", .str "x"), ("n", .float ⟨0x43e0000000000000⟩)])]) := by
  have hlimits : WithinLimits mixed := by
    refine ⟨⟨⟨_, rfl⟩, ⟨trivial, trivial⟩, ⟨_, rfl⟩, ⟨trivial, trivial, trivial⟩, ⟨_, rfl⟩,
      ⟨⟨_, rfl⟩, trivial, ⟨_, rfl⟩, trivial, trivial⟩, trivial⟩, by decide, ?_⟩
    have hnumbers : ∀ l ∈ mixed.numbers, l.toBinary64? ≠ none := by decide +kernel
    intro l hl
    exact not_not.mp (mt (Literal.toBinary64?_eq_none_iff l).mpr (hnumbers l hl))
  obtain ⟨v, hreads, htext, hprint, -⟩ := values_read_by_kind hlimits
  refine ⟨hlimits, ?_⟩
  rw [htext _ hprint]
  congr 1
  have hone : Number.ofLiteral? (.ofInt 1) = some (.integer 1) := by decide +kernel
  have hzero : Number.ofLiteral? ⟨true, 0, [], none, Decimal.isDigit_nil⟩ =
      some (.float ⟨0x8000000000000000⟩) := by decide +kernel
  have hword : Number.ofLiteral? (.ofInt 9223372036854775808) =
      some (.integer 9223372036854775808) := by decide +kernel
  have hfloat : Binary64.ofDecimal false 9223372036854775808 0 = some ⟨0x43e0000000000000⟩ := by
    decide +kernel
  have hread : readTree maxDepth mixed = .ok (Value.map
      [("in", .list [.bool true, .float ⟨0x8000000000000000⟩]),
        ("at", .map [("to", .str "x"), ("n", .float ⟨0x43e0000000000000⟩)])]).tree := by
    simp only [mixed, maxDepth, Json.ofMembers, Json.member, List.map_cons, List.map_nil,
      readTree, readTrees, readEntries, hone, hzero, hword, Option.bind_eq_bind,
      Option.bind_some, numberTree?, Int.reducePow, Int.reduceToNat, Nat.one_lt_ofNat,
      lt_self_iff_false, ↓reduceIte, hfloat, Int64.reduceOfInt, Option.map_some]
    rfl
  exact Value.ext ((hreads _).mp (reads_of_readTree hread)).symm

end Wire

end FlowEvents
