import FlowEvents.Decimal.Binary64
import FlowEvents.Payload.Entries

/-! # Payload trees

The shape of a dynamically typed value: null, a truth value, an integer, a floating-point number, a
string, a list of values, or a map from keys to values.  `Ordered` says that the keys of every map,
however deep, ascend; it is what makes a tree a value (`FlowEvents.Value`).
-/

namespace FlowEvents

open Decimal (Binary64)

/-- The shape of a payload value. -/
inductive Tree where
  | null
  | bool (b : Bool)
  | int (n : Int64)
  | float (x : Binary64)
  | str (s : String)
  | list (items : List Tree)
  | map (entries : List (String × Tree))

namespace Tree

instance : Inhabited Tree := ⟨.null⟩

mutual

/-- The keys of every map in the tree ascend. -/
def Ordered : Tree → Prop
  | list items => AllOrdered items
  | map entries => Entries.Ascending entries ∧ EntriesOrdered entries
  | _ => True

def AllOrdered : List Tree → Prop
  | [] => True
  | t :: ts => Ordered t ∧ AllOrdered ts

def EntriesOrdered : List (String × Tree) → Prop
  | [] => True
  | (_, t) :: es => Ordered t ∧ EntriesOrdered es

end

theorem allOrdered_iff {ts : List Tree} : AllOrdered ts ↔ ∀ t ∈ ts, t.Ordered := by
  induction ts with
  | nil => simp [AllOrdered]
  | cons t ts ih => simp [AllOrdered, ih]

theorem entriesOrdered_iff {es : List (String × Tree)} :
    EntriesOrdered es ↔ ∀ e ∈ es, e.2.Ordered := by
  induction es with
  | nil => simp [EntriesOrdered]
  | cons e es ih => simp [EntriesOrdered, ih]

theorem ordered_list_iff {items : List Tree} :
    (list items).Ordered ↔ ∀ t ∈ items, t.Ordered := by
  rw [Ordered, allOrdered_iff]

theorem ordered_map_iff {entries : List (String × Tree)} :
    (map entries).Ordered ↔ Entries.Ascending entries ∧ ∀ e ∈ entries, e.2.Ordered := by
  rw [Ordered, entriesOrdered_iff]

theorem ordered_map_insert {key : String} {t : Tree} {entries : List (String × Tree)}
    (ht : t.Ordered) (h : (map entries).Ordered) :
    (map (Entries.insert key t entries)).Ordered := by
  obtain ⟨hasc, hall⟩ := ordered_map_iff.mp h
  refine ordered_map_iff.mpr ⟨hasc.insert, fun e he => ?_⟩
  rcases Entries.mem_insert he with rfl | he
  · exact ht
  · exact hall e he

theorem ordered_map_erase {key : String} {entries : List (String × Tree)}
    (h : (map entries).Ordered) : (map (Entries.erase key entries)).Ordered := by
  obtain ⟨hasc, hall⟩ := ordered_map_iff.mp h
  exact ordered_map_iff.mpr ⟨hasc.erase, fun e he => hall e (Entries.mem_erase he)⟩

theorem ordered_map_ofPairs {pairs : List (String × Tree)} (h : ∀ p ∈ pairs, p.2.Ordered) :
    (map (Entries.ofPairs pairs)).Ordered :=
  Entries.ofPairs_induction (motive := fun es => (map es).Ordered)
    (ordered_map_iff.mpr ⟨Entries.ascending_nil, by simp⟩)
    fun p hp _ hes => ordered_map_insert (h p hp) hes

/-! ## Equality

Floating-point numbers are compared as numbers, everything else by its parts, and values of
different kinds are never equal: the integer one is not the floating-point one. -/

mutual

def same : Tree → Tree → Bool
  | null, null => true
  | bool a, bool b => a == b
  | int a, int b => a == b
  | float a, float b => a.equals b
  | str a, str b => a == b
  | list as, list bs => allSame as bs
  | map as, map bs => entriesSame as bs
  | _, _ => false

def allSame : List Tree → List Tree → Bool
  | [], [] => true
  | a :: as, b :: bs => same a b && allSame as bs
  | _, _ => false

def entriesSame : List (String × Tree) → List (String × Tree) → Bool
  | [], [] => true
  | (k, a) :: as, (l, b) :: bs => k == l && same a b && entriesSame as bs
  | _, _ => false

end

end Tree

end FlowEvents
