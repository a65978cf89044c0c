import FlowEvents.Payload.Tree

/-! # Payload values and payloads

A `Value` is a tree whose maps are in order; a `Payload` maps keys to values.  Both are built only
by operations that keep the order, so two payloads with the same entries are the same payload, and
what a payload looks like never depends on how it came about.
-/

namespace FlowEvents

open Decimal (Binary64)

@[ext]
structure Value where
  tree : Tree
  ordered : tree.Ordered

namespace Value

def null : Value := ⟨.null, by simp [Tree.Ordered]⟩

instance : Inhabited Value := ⟨null⟩

def bool (b : Bool) : Value := ⟨.bool b, by simp [Tree.Ordered]⟩

def int (n : Int64) : Value := ⟨.int n, by simp [Tree.Ordered]⟩

def float (x : Binary64) : Value := ⟨.float x, by simp [Tree.Ordered]⟩

def str (s : String) : Value := ⟨.str s, by simp [Tree.Ordered]⟩

def list (items : List Value) : Value :=
  ⟨.list (items.map (·.tree)), Tree.ordered_list_iff.mpr fun t ht => by
    obtain ⟨v, -, rfl⟩ := List.mem_map.mp ht
    exact v.ordered⟩

/-- A map, in which a later pair with the same key wins. -/
def map (pairs : List (String × Value)) : Value :=
  ⟨.map (Entries.ofPairs (pairs.map fun p => (p.1, p.2.tree))),
    Tree.ordered_map_ofPairs fun p hp => by
      obtain ⟨q, -, rfl⟩ := List.mem_map.mp hp
      exact q.2.ordered⟩

/-! ## Looking inside -/

def string? (v : Value) : Option String :=
  match v.tree with
  | .str s => some s
  | _ => none

def int? (v : Value) : Option Int64 :=
  match v.tree with
  | .int n => some n
  | _ => none

def bool? (v : Value) : Option Bool :=
  match v.tree with
  | .bool b => some b
  | _ => none

def isNull (v : Value) : Bool :=
  match v.tree with
  | .null => true
  | _ => false

instance : BEq Value := ⟨fun a b => a.tree.same b.tree⟩

end Value

/-- Keyed values in ascending order of their keys. -/
@[ext]
structure Payload where
  entries : List (String × Tree)
  ordered : (Tree.map entries).Ordered

namespace Payload

def empty : Payload :=
  ⟨[], Tree.ordered_map_iff.mpr ⟨Entries.ascending_nil, by simp⟩⟩

instance : Inhabited Payload := ⟨empty⟩

def toValue (p : Payload) : Value := ⟨.map p.entries, p.ordered⟩

def insert (p : Payload) (key : String) (v : Value) : Payload :=
  ⟨Entries.insert key v.tree p.entries, Tree.ordered_map_insert v.ordered p.ordered⟩

def erase (p : Payload) (key : String) : Payload :=
  ⟨Entries.erase key p.entries, Tree.ordered_map_erase p.ordered⟩

def get? (p : Payload) (key : String) : Option Value :=
  match h : p.entries.lookup key with
  | none => none
  | some t => some ⟨t, (Tree.ordered_map_iff.mp p.ordered).2 (key, t) (Entries.mem_of_lookup h)⟩

/-- The payload of a list of pairs, in which a later pair with the same key wins. -/
def ofPairs (pairs : List (String × Value)) : Payload :=
  pairs.foldl (fun p kv => p.insert kv.1 kv.2) empty

/-! ## What is found -/

theorem map_tree_get? (p : Payload) (key : String) :
    (p.get? key).map Value.tree = p.entries.lookup key := by
  unfold get?
  split
  next h => simp only [Option.map_none, h]
  next h => simp only [Option.map_some, h]

@[simp]
theorem get?_empty (key : String) : empty.get? key = none := rfl

@[simp]
theorem get?_insert (p : Payload) (key k : String) (v : Value) :
    (p.insert key v).get? k = if k = key then some v else p.get? k := by
  apply Option.map_injective (fun a b h => Value.ext h)
  rw [map_tree_get?, insert, Entries.lookup_insert, ← map_tree_get?]
  split <;> rfl

@[simp]
theorem get?_erase (p : Payload) (key k : String) :
    (p.erase key).get? k = if k = key then none else p.get? k := by
  apply Option.map_injective (fun a b h => Value.ext h)
  rw [map_tree_get?, erase, Entries.lookup_erase, ← map_tree_get?]
  split <;> rfl

/-- Two payloads in which the same is found are the same payload. -/
theorem ext_get? {p q : Payload} (h : ∀ k, p.get? k = q.get? k) : p = q := by
  apply Payload.ext
  refine Entries.Ascending.ext_lookup (Tree.ordered_map_iff.mp p.ordered).1
    (Tree.ordered_map_iff.mp q.ordered).1 fun k => ?_
  rw [← map_tree_get?, ← map_tree_get?, h]

instance : BEq Payload := ⟨fun a b => Tree.entriesSame a.entries b.entries⟩

end Payload

end FlowEvents
