import FlowEvents.Payload.Value
import Mathlib.Data.List.Forall2
import Mathlib.Data.List.Induction
import Mathlib.Logic.Function.Basic

/-! # What of a payload can be written down

Numbers that are not finite have no literal, so a payload that has been written and read is the
*settled* one: null stands in their place, everything else is kept.  How far it can be written at
all is a matter of its *depth*.  Payloads may be written in any order of their entries, which
`Entries.ofPairs` puts right again.
-/

namespace FlowEvents

open Decimal (Binary64)

/-! ## Entries in any order -/

namespace Entries

variable {α : Type}

/-- Two lookups that find something together find it both, or neither finds anything. -/
theorem both_or_neither {β : Type} {a? : Option α} {b? : Option β} (h : a?.isSome = b?.isSome) :
    (a? = none ∧ b? = none) ∨ ∃ a b, a? = some a ∧ b? = some b := by
  cases a? with
  | none =>
      cases b? with
      | none => exact .inl ⟨rfl, rfl⟩
      | some b => cases h
  | some a =>
      cases b? with
      | none => cases h
      | some b => exact .inr ⟨a, b, rfl, rfl⟩

/-- Where entry after entry is related, what is found under a key is.  The keys of one side may be
written in another way. -/
theorem lookup_forall₂ {κ β : Type} [BEq κ] [LawfulBEq κ] {write : String → κ}
    (hwrite : Function.Injective write) {R : α → β → Prop} {as : List (κ × α)}
    {bs : List (String × β)} (h : List.Forall₂ (fun a b => a.1 = write b.1 ∧ R a.2 b.2) as bs)
    (k : String) :
    (as.lookup (write k) = none ∧ bs.lookup k = none) ∨
      ∃ a b, as.lookup (write k) = some a ∧ bs.lookup k = some b ∧ R a b := by
  induction h with
  | nil => exact .inl ⟨rfl, rfl⟩
  | @cons a b as bs hab h ih =>
      obtain ⟨_, x⟩ := a
      obtain ⟨l, y⟩ := b
      obtain ⟨rfl, hxy⟩ : _ = write l ∧ R x y := hab
      by_cases hk : k = l
      · exact .inr ⟨x, y, by simp [hk], by simp [hk], hxy⟩
      · rw [List.lookup_cons, List.lookup_cons, beq_false_of_ne hk,
          beq_false_of_ne (hwrite.ne hk)]
        exact ih

/-- No two entries have the same key. -/
def Distinct (pairs : List (String × α)) : Prop :=
  pairs.Pairwise fun a b => a.1 ≠ b.1

theorem Ascending.distinct {entries : List (String × α)} (h : Ascending entries) :
    Distinct entries := by
  refine List.Pairwise.imp ?_ h
  intro a b hlt heq
  rw [heq] at hlt
  exact String.lt_irrefl _ hlt

theorem Distinct.perm {as bs : List (String × α)} (h : Distinct bs) (hperm : as.Perm bs) :
    Distinct as :=
  (hperm.pairwise_iff (fun h => Ne.symm h)).mpr h

theorem lookup_ofPairs_iff {pairs : List (String × α)} (h : Distinct pairs) (k : String) (v : α) :
    (ofPairs pairs).lookup k = some v ↔ (k, v) ∈ pairs := by
  induction pairs using List.reverseRecOn with
  | nil => simp [ofPairs]
  | append_singleton pairs p ih =>
      obtain ⟨hpairs, -, hlast⟩ := List.pairwise_append.mp h
      -- the last pair is found under its key, where no earlier one stands
      rw [ofPairs_concat, lookup_insert, List.mem_append, List.mem_singleton]
      by_cases hk : k = p.1
      · rw [if_pos hk]
        constructor
        · intro hv
          exact .inr (by rw [hk, ← Option.some.inj hv])
        · rintro (hmem | heq)
          · exact absurd hk (hlast _ hmem p (List.mem_singleton_self p))
          · rw [← heq]
      · rw [if_neg hk, ih hpairs]
        constructor
        · exact .inl
        · rintro (hmem | heq)
          · exact hmem
          · exact absurd (congrArg Prod.fst heq) hk

/-- Entries in order are what is made of them in any order. -/
theorem ofPairs_eq_of_perm {pairs entries : List (String × α)} (hperm : pairs.Perm entries)
    (h : Ascending entries) : ofPairs pairs = entries := by
  apply (ascending_ofPairs pairs).ext_lookup h
  intro k
  ext v
  rw [lookup_ofPairs_iff (h.distinct.perm hperm), hperm.mem_iff]
  exact ⟨h.lookup_of_mem, mem_of_lookup⟩

end Entries

namespace Tree

/-! ## Settled trees -/

mutual

/-- The tree with null in place of every number that is not finite. -/
def settled : Tree → Tree
  | float x => if x.isFinite then float x else null
  | list items => list (allSettled items)
  | map entries => map (entriesSettled entries)
  | t => t

def allSettled : List Tree → List Tree
  | [] => []
  | t :: ts => settled t :: allSettled ts

def entriesSettled : List (String × Tree) → List (String × Tree)
  | [] => []
  | (key, t) :: es => (key, settled t) :: entriesSettled es

end

theorem entriesSettled_eq (es : List (String × Tree)) :
    entriesSettled es = es.map fun e => (e.1, e.2.settled) := by
  induction es with
  | nil => rfl
  | cons e es ih => rw [entriesSettled, ih, List.map_cons]

theorem ascending_entriesSettled {es : List (String × Tree)} (h : Entries.Ascending es) :
    Entries.Ascending (entriesSettled es) := by
  rw [entriesSettled_eq]
  exact List.pairwise_map.mpr h

theorem entriesSettled_perm {as bs : List (String × Tree)} (h : as.Perm bs) :
    (entriesSettled as).Perm (entriesSettled bs) := by
  rw [entriesSettled_eq, entriesSettled_eq]
  exact h.map _

mutual

theorem Ordered.settled : ∀ {t : Tree}, t.Ordered → t.settled.Ordered
  | null, _ => trivial
  | bool _, _ => trivial
  | int _, _ => trivial
  | str _, _ => trivial
  | float x, _ => by
      rw [Tree.settled]
      split
      · trivial
      · trivial
  | list items, h => allOrdered_settled h
  | map entries, h => ⟨ascending_entriesSettled h.1, entriesOrdered_settled h.2⟩

theorem allOrdered_settled : ∀ {ts : List Tree}, AllOrdered ts → AllOrdered (allSettled ts)
  | [], _ => trivial
  | _ :: _, h => ⟨h.1.settled, allOrdered_settled h.2⟩

theorem entriesOrdered_settled :
    ∀ {es : List (String × Tree)}, EntriesOrdered es → EntriesOrdered (entriesSettled es)
  | [], _ => trivial
  | (_, _) :: _, h => ⟨h.1.settled, entriesOrdered_settled h.2⟩

end

/-! ## Numbers -/

mutual

/-- The floating-point numbers in the tree, however deep. -/
def floats : Tree → List Binary64
  | float x => [x]
  | list items => allFloats items
  | map entries => entriesFloats entries
  | _ => []

def allFloats : List Tree → List Binary64
  | [] => []
  | t :: ts => floats t ++ allFloats ts

def entriesFloats : List (String × Tree) → List Binary64
  | [] => []
  | (_, t) :: es => floats t ++ entriesFloats es

end

theorem mem_allFloats {ts : List Tree} {x : Binary64} :
    x ∈ allFloats ts ↔ ∃ t ∈ ts, x ∈ t.floats := by
  induction ts with
  | nil => simp [allFloats]
  | cons t ts ih => simp [allFloats, ih]

theorem mem_entriesFloats {es : List (String × Tree)} {x : Binary64} :
    x ∈ entriesFloats es ↔ ∃ e ∈ es, x ∈ e.2.floats := by
  induction es with
  | nil => simp [entriesFloats]
  | cons e es ih => simp [entriesFloats, ih]

mutual

theorem settled_eq_self :
    ∀ {t : Tree}, (∀ x ∈ t.floats, x.isFinite = true) → t.settled = t
  | null, _ => rfl
  | bool _, _ => rfl
  | int _, _ => rfl
  | str _, _ => rfl
  | float x, h => if_pos (h x (List.mem_singleton_self x))
  | list _, h => congrArg list (allSettled_eq_self h)
  | map _, h => congrArg map (entriesSettled_eq_self h)

theorem allSettled_eq_self :
    ∀ {ts : List Tree}, (∀ x ∈ allFloats ts, x.isFinite = true) → allSettled ts = ts
  | [], _ => rfl
  | t :: ts, h => by
      obtain ⟨ht, hts⟩ := List.forall_mem_append.mp h
      rw [allSettled, settled_eq_self ht, allSettled_eq_self hts]

theorem entriesSettled_eq_self :
    ∀ {es : List (String × Tree)}, (∀ x ∈ entriesFloats es, x.isFinite = true) →
      entriesSettled es = es
  | [], _ => rfl
  | (key, t) :: es, h => by
      obtain ⟨ht, hes⟩ := List.forall_mem_append.mp h
      rw [entriesSettled, settled_eq_self ht, entriesSettled_eq_self hes]

end

/-! ## Depth -/

mutual

/-- How many lists and maps are nested in one another. -/
def depth : Tree → Nat
  | list items => allDepth items + 1
  | map entries => entriesDepth entries + 1
  | _ => 0

def allDepth : List Tree → Nat
  | [] => 0
  | t :: ts => max (depth t) (allDepth ts)

def entriesDepth : List (String × Tree) → Nat
  | [] => 0
  | (_, t) :: es => max (depth t) (entriesDepth es)

end

theorem allDepth_le_iff {ts : List Tree} {n : Nat} : allDepth ts ≤ n ↔ ∀ t ∈ ts, t.depth ≤ n := by
  induction ts with
  | nil => simp [allDepth]
  | cons t ts ih => rw [allDepth, Nat.max_le, ih, List.forall_mem_cons]

theorem entriesDepth_le_iff {es : List (String × Tree)} {n : Nat} :
    entriesDepth es ≤ n ↔ ∀ e ∈ es, e.2.depth ≤ n := by
  induction es with
  | nil => simp [entriesDepth]
  | cons e es ih =>
      rw [entriesDepth, Nat.max_le, ih, List.forall_mem_cons]

theorem entriesDepth_perm {as bs : List (String × Tree)} {n : Nat} (h : as.Perm bs) :
    entriesDepth as ≤ n ↔ entriesDepth bs ≤ n := by
  rw [entriesDepth_le_iff, entriesDepth_le_iff]
  constructor
  · exact fun hall e he => hall e (h.mem_iff.mpr he)
  · exact fun hall e he => hall e (h.mem_iff.mp he)

end Tree

/-- The value with null in place of every number that is not finite. -/
def Value.settled (v : Value) : Value :=
  ⟨v.tree.settled, v.ordered.settled⟩

/-- The payload with null in place of every number that is not finite. -/
def Payload.settled (p : Payload) : Payload :=
  ⟨Tree.entriesSettled p.entries, Tree.Ordered.settled p.ordered⟩

end FlowEvents
