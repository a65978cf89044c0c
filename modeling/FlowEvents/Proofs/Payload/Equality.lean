import FlowEvents.Proofs.Decimal.Value
import FlowEvents.Proofs.Payload.Settled
import Mathlib.Data.List.Perm.Subperm

/-! # Equality of payloads

Two trees are alike if they are of one kind and have the same content.  Of floating-point numbers
that is the number they stand for, of maps what is found under each key; neither the words of the
numbers nor the way in which the entries are kept comes into it.  `Alike` says so, and equality
decides it (`same_iff_alike`).

Equality is symmetric and transitive, but a tree with a non-number in it is not equal to itself.
-/

namespace FlowEvents

open Decimal (Binary64)

/-! ## Entries -/

namespace Entries

variable {α β : Type} {R : α → β → Prop} {as : List (String × α)} {bs : List (String × β)}

/-- The same keys in the same places, and related values under them. -/
abbrev Matched (R : α → β → Prop) (as : List (String × α)) (bs : List (String × β)) : Prop :=
  List.Forall₂ (fun a b => a.1 = b.1 ∧ R a.2 b.2) as bs

/-- Under every key both find something, related, or neither does. -/
def Agree (R : α → β → Prop) (as : List (String × α)) (bs : List (String × β)) : Prop :=
  (∀ k, (as.lookup k).isSome = (bs.lookup k).isSome) ∧
    ∀ k a b, as.lookup k = some a → bs.lookup k = some b → R a b

theorem Matched.agree (h : Matched R as bs) : Agree R as bs := by
  have hlookup : ∀ k, (as.lookup k = none ∧ bs.lookup k = none) ∨
      ∃ a b, as.lookup k = some a ∧ bs.lookup k = some b ∧ R a b :=
    lookup_forall₂ Function.injective_id h
  constructor
  · intro k
    rcases hlookup k with ⟨ha, hb⟩ | ⟨a, b, ha, hb, -⟩
    · rw [ha, hb]
      rfl
    · rw [ha, hb]
      rfl
  · intro k a b ha hb
    rcases hlookup k with ⟨hnone, -⟩ | ⟨a', b', ha', hb', hab⟩
    · cases ha.symm.trans hnone
    · rw [Option.some.inj (ha.symm.trans ha'), Option.some.inj (hb.symm.trans hb')]
      exact hab

theorem lookup_eq_none {k : String} (h : ∀ e ∈ as, k < e.1) : as.lookup k = none := by
  cases hlookup : as.lookup k with
  | none => rfl
  | some a => exact absurd (h _ (mem_of_lookup hlookup)) (String.lt_irrefl k)

theorem Ascending.lookup_eq_none_of_lt {k l : String} {x : α} (h : Ascending ((k, x) :: as))
    (hlt : l < k) : List.lookup l ((k, x) :: as) = none := by
  refine lookup_eq_none fun e he => ?_
  rcases List.mem_cons.mp he with rfl | he
  · exact hlt
  · exact String.lt_trans hlt ((List.pairwise_cons.mp h).1 e he)

/-- Of ascending entries the first that are found together come first in both. -/
theorem Agree.first_eq {k l : String} {x : α} {y : β} (ha : Ascending ((k, x) :: as))
    (hb : Ascending ((l, y) :: bs)) (h : Agree R ((k, x) :: as) ((l, y) :: bs)) : k = l := by
  have hk := h.1 k
  have hl := h.1 l
  rw [List.lookup_cons_self] at hk hl
  refine String.le_antisymm (String.not_lt.mp fun hlt => ?_) (String.not_lt.mp fun hlt => ?_)
  · rw [ha.lookup_eq_none_of_lt hlt] at hl
    cases hl
  · rw [hb.lookup_eq_none_of_lt hlt] at hk
    cases hk

/-- Of ascending entries those that agree stand in the same places. -/
theorem Agree.matched (ha : Ascending as) (hb : Ascending bs) (h : Agree R as bs) :
    Matched R as bs := by
  induction as generalizing bs with
  | nil =>
      cases bs with
      | nil => exact .nil
      | cons b bs => simpa using h.1 b.1
  | cons a as ih =>
      obtain ⟨k, x⟩ := a
      cases bs with
      | nil => simpa using h.1 k
      | cons b bs =>
          obtain ⟨l, y⟩ := b
          obtain rfl : k = l := h.first_eq ha hb
          obtain ⟨hk, ha⟩ := List.pairwise_cons.mp ha
          obtain ⟨hl, hb⟩ := List.pairwise_cons.mp hb
          refine .cons ⟨rfl, h.2 k x y List.lookup_cons_self List.lookup_cons_self⟩ (ih ha hb ?_)
          -- behind the first entries nothing is found under their key
          constructor
          · intro k'
            by_cases hne : k' = k
            · rw [hne, lookup_eq_none hk, lookup_eq_none hl]
              rfl
            · have hsome := h.1 k'
              rwa [List.lookup_cons, List.lookup_cons, beq_false_of_ne hne] at hsome
          · intro k' a b hfa hfb
            by_cases hne : k' = k
            · rw [hne, lookup_eq_none hk] at hfa
              cases hfa
            · refine h.2 k' a b ?_ ?_
              · rwa [List.lookup_cons, beq_false_of_ne hne]
              · rwa [List.lookup_cons, beq_false_of_ne hne]

theorem matched_iff_agree (ha : Ascending as) (hb : Ascending bs) :
    Matched R as bs ↔ Agree R as bs :=
  ⟨Matched.agree, Agree.matched ha hb⟩

theorem Ascending.mem_keys_iff (h : Ascending as) (k : String) :
    k ∈ as.map Prod.fst ↔ ∃ a, as.lookup k = some a := by
  rw [List.mem_map]
  constructor
  · rintro ⟨e, he, rfl⟩
    exact ⟨e.2, h.lookup_of_mem he⟩
  · rintro ⟨a, ha⟩
    exact ⟨_, mem_of_lookup ha, rfl⟩

theorem Ascending.nodup_keys (h : Ascending as) : (as.map Prod.fst).Nodup :=
  List.pairwise_map.mpr h.distinct

/-- It is enough to look up one side in the other if there are as many entries on either. -/
theorem agree_iff_lookup (ha : Ascending as) (hb : Ascending bs) :
    Agree R as bs ↔ as.length = bs.length ∧
      ∀ k a, as.lookup k = some a → ∃ b, bs.lookup k = some b ∧ R a b := by
  constructor
  · intro h
    refine ⟨(h.matched ha hb).length_eq, fun k a hfa => ?_⟩
    rcases both_or_neither (h.1 k) with ⟨hnone, -⟩ | ⟨-, b, -, hfb⟩
    · cases hfa.symm.trans hnone
    · exact ⟨b, hfb, h.2 k a b hfa hfb⟩
  · rintro ⟨hlength, hfound⟩
    -- as many different keys there, and all of these among them: the keys are the same
    have hsubset : as.map Prod.fst ⊆ bs.map Prod.fst := by
      intro k hk
      obtain ⟨a, hfa⟩ := (ha.mem_keys_iff k).mp hk
      obtain ⟨b, hfb, -⟩ := hfound k a hfa
      exact (hb.mem_keys_iff k).mpr ⟨b, hfb⟩
    have hperm : (as.map Prod.fst).Perm (bs.map Prod.fst) :=
      (List.subperm_of_subset ha.nodup_keys hsubset).perm_of_length_le (by simp [hlength])
    constructor
    · intro k
      rw [Bool.eq_iff_iff, Option.isSome_iff_exists, Option.isSome_iff_exists, ← ha.mem_keys_iff,
        ← hb.mem_keys_iff, hperm.mem_iff]
    · intro k a b hfa hfb
      obtain ⟨b', hfb', hab⟩ := hfound k a hfa
      rwa [Option.some.inj (hfb.symm.trans hfb')]

end Entries

namespace Tree

/-! ## Trees -/

/-- Of one kind and with the same content. -/
inductive Alike : Tree → Tree → Prop
  | null : Alike .null .null
  | bool (b : Bool) : Alike (.bool b) (.bool b)
  | int (n : Int64) : Alike (.int n) (.int n)
  | float (x y : Binary64) (r : Binary64.Extended) (hx : x.value? = some r)
      (hy : y.value? = some r) : Alike (.float x) (.float y)
  | str (s : String) : Alike (.str s) (.str s)
  | list (as bs : List Tree) (hlength : as.length = bs.length)
      (hitems : ∀ (i : Nat) (a b : Tree), as[i]? = some a → bs[i]? = some b → Alike a b) :
      Alike (.list as) (.list bs)
  | map (as bs : List (String × Tree))
      (hkeys : ∀ k, (as.lookup k).isSome = (bs.lookup k).isSome)
      (hvalues : ∀ (k : String) (a b : Tree), as.lookup k = some a → bs.lookup k = some b →
        Alike a b) : Alike (.map as) (.map bs)

variable {a b c : Tree}

theorem Alike.symm (h : Alike a b) : Alike b a := by
  induction h with
  | null => exact .null
  | bool b => exact .bool b
  | int n => exact .int n
  | float x y r hx hy => exact .float y x r hy hx
  | str s => exact .str s
  | list as bs hlength hitems ih =>
      exact .list bs as hlength.symm fun i b a hb ha => ih i a b ha hb
  | map as bs hkeys hvalues ih =>
      exact .map bs as (fun k => (hkeys k).symm) fun k b a hb ha => ih k a b ha hb

theorem Alike.trans (h : Alike a b) (h' : Alike b c) : Alike a c := by
  induction h generalizing c with
  | null => exact h'
  | bool b => exact h'
  | int n => exact h'
  | str s => exact h'
  | float x y r hx hy =>
      cases h' with
      | float _ z r' hy' hz =>
          obtain rfl : r = r' := Option.some.inj (hy.symm.trans hy')
          exact .float x z r hx hz
  | list as bs hlength hitems ih =>
      cases h' with
      | list _ cs hlength' hitems' =>
          refine .list as cs (hlength.trans hlength') fun i a c ha hc => ?_
          obtain ⟨hi, -⟩ := List.getElem?_eq_some_iff.mp ha
          have hb := List.getElem?_eq_getElem (hlength ▸ hi : i < bs.length)
          exact ih i a _ ha hb (hitems' i _ c hb hc)
  | map as bs hkeys hvalues ih =>
      cases h' with
      | map _ cs hkeys' hvalues' =>
          refine .map as cs (fun k => (hkeys k).trans (hkeys' k)) fun k a c ha hc => ?_
          rcases Entries.both_or_neither (hkeys k) with ⟨hnone, -⟩ | ⟨a', b, -, hb⟩
          · cases ha.symm.trans hnone
          · exact ih k a b ha hb (hvalues' k b c hb hc)

/-! ## Equality decides it -/

theorem allSame_iff {as bs : List Tree} :
    allSame as bs = true ↔ List.Forall₂ (fun a b => same a b = true) as bs := by
  induction as generalizing bs with
  | nil => cases bs <;> simp [allSame]
  | cons a as ih => cases bs <;> simp [allSame, ih]

theorem entriesSame_iff {as bs : List (String × Tree)} :
    entriesSame as bs = true ↔ Entries.Matched (fun a b => same a b = true) as bs := by
  induction as generalizing bs with
  | nil => cases bs <;> simp [entriesSame]
  | cons a as ih => cases bs <;> simp [entriesSame, ih]

mutual

theorem alike_of_same : ∀ {a b : Tree}, same a b = true → Alike a b
  | .null, b, h => by
      cases b with
      | null => exact .null
      | _ => cases h
  | .bool _, b, h => by
      cases b with
      | bool y => exact beq_iff_eq.mp h ▸ .bool _
      | _ => cases h
  | .int _, b, h => by
      cases b with
      | int y => exact beq_iff_eq.mp h ▸ .int _
      | _ => cases h
  | .float x, b, h => by
      cases b with
      | float y =>
          obtain ⟨r, hx, hy⟩ := Binary64.equals_iff.mp h
          exact .float x y r hx hy
      | _ => cases h
  | .str _, b, h => by
      cases b with
      | str y => exact beq_iff_eq.mp h ▸ .str _
      | _ => cases h
  | .list as, b, h => by
      cases b with
      | list bs =>
          have halike := allAlike_of_allSame h
          refine .list as bs halike.length_eq fun i a b ha hb => ?_
          obtain ⟨hi, rfl⟩ := List.getElem?_eq_some_iff.mp ha
          obtain ⟨hi', rfl⟩ := List.getElem?_eq_some_iff.mp hb
          exact halike.get hi hi'
      | _ => cases h
  | .map as, b, h => by
      cases b with
      | map bs =>
          obtain ⟨hkeys, hvalues⟩ := (entriesAlike_of_entriesSame h).agree
          exact .map as bs hkeys hvalues
      | _ => cases h

theorem allAlike_of_allSame :
    ∀ {as bs : List Tree}, allSame as bs = true → List.Forall₂ Alike as bs
  | [], [], _ => .nil
  | a :: as, b :: bs, h => by
      obtain ⟨hfirst, hrest⟩ := Bool.and_eq_true_iff.mp h
      exact .cons (alike_of_same hfirst) (allAlike_of_allSame hrest)
  | [], _ :: _, h => by cases h
  | _ :: _, [], h => by cases h

theorem entriesAlike_of_entriesSame :
    ∀ {as bs : List (String × Tree)}, entriesSame as bs = true → Entries.Matched Alike as bs
  | [], [], _ => .nil
  | (k, a) :: as, (l, b) :: bs, h => by
      obtain ⟨hfirst, hrest⟩ := Bool.and_eq_true_iff.mp h
      obtain ⟨hkey, hvalue⟩ := Bool.and_eq_true_iff.mp hfirst
      exact .cons ⟨beq_iff_eq.mp hkey, alike_of_same hvalue⟩ (entriesAlike_of_entriesSame hrest)
  | [], _ :: _, h => by cases h
  | _ :: _, [], h => by cases h

end

theorem same_of_alike (h : Alike a b) (ha : a.Ordered) (hb : b.Ordered) : same a b = true := by
  induction h with
  | null => rfl
  | bool b => exact beq_self_eq_true b
  | int n => exact beq_self_eq_true n
  | str s => exact beq_self_eq_true s
  | float x y r hx hy => exact Binary64.equals_iff.mpr ⟨r, hx, hy⟩
  | list as bs hlength hitems ih =>
      rw [ordered_list_iff] at ha hb
      refine allSame_iff.mpr (List.forall₂_iff_get.mpr ⟨hlength, fun i hi hi' => ?_⟩)
      exact ih i _ _ (List.getElem?_eq_getElem hi) (List.getElem?_eq_getElem hi')
        (ha _ (List.getElem_mem hi)) (hb _ (List.getElem_mem hi'))
  | map as bs hkeys hvalues ih =>
      obtain ⟨hascending, ha⟩ := ordered_map_iff.mp ha
      obtain ⟨hascending', hb⟩ := ordered_map_iff.mp hb
      refine entriesSame_iff.mpr (Entries.Agree.matched hascending hascending' ⟨hkeys, ?_⟩)
      intro k a b hfa hfb
      exact ih k a b hfa hfb (ha _ (Entries.mem_of_lookup hfa)) (hb _ (Entries.mem_of_lookup hfb))

theorem same_iff_alike (ha : a.Ordered) (hb : b.Ordered) : same a b = true ↔ Alike a b :=
  ⟨alike_of_same, fun h => same_of_alike h ha hb⟩

/-! ## Equal to itself -/

mutual

/-- Only a non-number keeps a tree from being equal to itself. -/
theorem same_self_iff : ∀ t : Tree, same t t = true ↔ ∀ x ∈ t.floats, x.isNaN = false
  | .null => by simp [same, floats]
  | .bool _ => by simp [same, floats]
  | .int _ => by simp [same, floats]
  | .str _ => by simp [same, floats]
  | .float x => by simp [same, floats, Binary64.equals_self_iff]
  | .list items => allSame_self_iff items
  | .map entries => entriesSame_self_iff entries

theorem allSame_self_iff :
    ∀ ts : List Tree, allSame ts ts = true ↔ ∀ x ∈ allFloats ts, x.isNaN = false
  | [] => by simp [allSame, allFloats]
  | t :: ts => by
      rw [allSame, Bool.and_eq_true_iff, same_self_iff t, allSame_self_iff ts, allFloats,
        List.forall_mem_append]

theorem entriesSame_self_iff : ∀ es : List (String × Tree),
    entriesSame es es = true ↔ ∀ x ∈ entriesFloats es, x.isNaN = false
  | [] => by simp [entriesSame, entriesFloats]
  | (key, t) :: es => by
      rw [entriesSame, Bool.and_eq_true_iff, Bool.and_eq_true_iff, same_self_iff t,
        entriesSame_self_iff es, entriesFloats, List.forall_mem_append]
      simp

end

end Tree

/-! ## Values and payloads -/

theorem Value.beq_iff {v w : Value} : (v == w) = true ↔ v.tree.Alike w.tree :=
  Tree.same_iff_alike v.ordered w.ordered

instance : PartialEquivBEq Value where
  symm h := Value.beq_iff.mpr (Value.beq_iff.mp h).symm
  trans h h' := Value.beq_iff.mpr ((Value.beq_iff.mp h).trans (Value.beq_iff.mp h'))

namespace Payload

variable {p q : Payload}

theorem beq_iff_alike : (p == q) = true ↔ (Tree.map p.entries).Alike (.map q.entries) :=
  Tree.same_iff_alike p.ordered q.ordered

instance : PartialEquivBEq Payload where
  symm h := beq_iff_alike.mpr (beq_iff_alike.mp h).symm
  trans h h' := beq_iff_alike.mpr ((beq_iff_alike.mp h).trans (beq_iff_alike.mp h'))

theorem lookup_eq_some_iff {k : String} {t : Tree} :
    p.entries.lookup k = some t ↔ ∃ v, p.get? k = some v ∧ v.tree = t := by
  rw [← map_tree_get?, Option.map_eq_some_iff]

theorem isSome_get? (k : String) : (p.get? k).isSome = (p.entries.lookup k).isSome := by
  rw [← map_tree_get?, Option.isSome_map]

theorem ascending (p : Payload) : Entries.Ascending p.entries :=
  (Tree.ordered_map_iff.mp p.ordered).1

theorem beq_iff_agree :
    (p == q) = true ↔ Entries.Agree (fun a b => Tree.same a b = true) p.entries q.entries := by
  rw [← Entries.matched_iff_agree p.ascending q.ascending]
  exact Tree.entriesSame_iff

/-- Payloads are equal if they have the same keys and equal values under them. -/
theorem beq_iff : (p == q) = true ↔
    (∀ k, (p.get? k).isSome = (q.get? k).isSome) ∧
      ∀ k v w, p.get? k = some v → q.get? k = some w → (v == w) = true := by
  rw [beq_iff_agree]
  constructor
  · rintro ⟨hkeys, hvalues⟩
    refine ⟨fun k => by rw [isSome_get?, isSome_get?, hkeys], fun k v w hv hw => ?_⟩
    exact hvalues k _ _ (lookup_eq_some_iff.mpr ⟨v, hv, rfl⟩) (lookup_eq_some_iff.mpr ⟨w, hw, rfl⟩)
  · rintro ⟨hkeys, hvalues⟩
    refine ⟨fun k => by rw [← isSome_get?, ← isSome_get?, hkeys], fun k a b ha hb => ?_⟩
    obtain ⟨v, hv, rfl⟩ := lookup_eq_some_iff.mp ha
    obtain ⟨w, hw, rfl⟩ := lookup_eq_some_iff.mp hb
    exact hvalues k v w hv hw

/-- If there are as many entries on either side it is enough to find those of one. -/
theorem beq_iff_found : (p == q) = true ↔
    p.entries.length = q.entries.length ∧
      ∀ k v, p.get? k = some v → ∃ w, q.get? k = some w ∧ (v == w) = true := by
  rw [beq_iff_agree, Entries.agree_iff_lookup p.ascending q.ascending]
  refine and_congr_right fun _ => forall_congr' fun k => ?_
  constructor
  · intro h v hv
    obtain ⟨b, hb, hsame⟩ := h v.tree (lookup_eq_some_iff.mpr ⟨v, hv, rfl⟩)
    obtain ⟨w, hw, rfl⟩ := lookup_eq_some_iff.mp hb
    exact ⟨w, hw, hsame⟩
  · intro h a ha
    obtain ⟨v, hv, rfl⟩ := lookup_eq_some_iff.mp ha
    obtain ⟨w, hw, hsame⟩ := h v hv
    exact ⟨w.tree, lookup_eq_some_iff.mpr ⟨w, hw, rfl⟩, hsame⟩

/-! ## Payloads that are put together -/

theorem ofPairs_concat (pairs : List (String × Value)) (kv : String × Value) :
    ofPairs (pairs ++ [kv]) = (ofPairs pairs).insert kv.1 kv.2 :=
  List.foldl_append

theorem get?_ofPairs (pairs : List (String × Value)) (k : String) :
    (ofPairs pairs).get? k = pairs.reverse.lookup k := by
  induction pairs using List.reverseRecOn with
  | nil => rfl
  | append_singleton pairs kv ih =>
      rw [ofPairs_concat, get?_insert, ih, List.reverse_append, List.reverse_singleton,
        List.singleton_append, List.lookup_cons]
      by_cases h : k = kv.1
      · simp [h]
      · simp [beq_false_of_ne h, h]

/-- The order of entries with different keys does not matter. -/
theorem ofPairs_perm {pairs pairs' : List (String × Value)} (h : pairs.Perm pairs')
    (hkeys : (pairs.map Prod.fst).Nodup) : ofPairs pairs = ofPairs pairs' := by
  have hdistinct : Entries.Distinct pairs := List.pairwise_map.mp hkeys
  apply ext_get?
  intro k
  ext v
  rw [get?_ofPairs, get?_ofPairs, ← Entries.lookup_ofPairs, ← Entries.lookup_ofPairs,
    Entries.lookup_ofPairs_iff hdistinct, Entries.lookup_ofPairs_iff (hdistinct.perm h.symm),
    h.mem_iff]

end Payload

end FlowEvents
