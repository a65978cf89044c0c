import FlowEvents.Identity.Grouping
import FlowEvents.Identity.Run
import Mathlib.Data.List.Dedup
import Std.Data.HashMap.Lemmas

/-! # Runs as keys

Runs that differ in their executors only are one key.  So there are fewer keys in a hash map than
items that were put into it, and which of the equal items serves as the key depends on their order:
it is the first one.  None of this depends on the hasher, as long as it is fed what the run feeds.
-/

namespace FlowEvents

namespace Grouping

variable {α : Type} [BEq α]

/-- Whoever is equal to one of two equal items is equal to the other. -/
theorem beq_congr [EquivBEq α] {a b : α} (hab : (a == b) = true) :
    (fun x : α => x == a) = (· == b) :=
  funext fun _ => BEq.congr_right hab

variable [Hashable α]

/-- Of the items that are equal to one, the first is in the map, with its position, and no other. -/
structure Indexes (seen : Std.HashMap α Nat) (items : List α) : Prop where
  position : ∀ a, seen[a]? = items.findIdx? (· == a)
  key : ∀ a, seen.getKey? a = items.find? (· == a)

theorem walk_cons (seen : Std.HashMap α Nat) (i : Nat) (a : α) (rest : List α) :
    walk seen i (a :: rest) =
      match seen[a]? with
      | some first => (first :: (walk seen (i + 1) rest).1, (walk seen (i + 1) rest).2)
      | none => (i :: (walk (seen.insert a i) (i + 1) rest).1,
          (walk (seen.insert a i) (i + 1) rest).2) := rfl

variable [EquivBEq α] [LawfulHashable α] {seen : Std.HashMap α Nat} {items : List α} {a : α}

theorem indexes_empty : Indexes (∅ : Std.HashMap α Nat) [] := by
  constructor <;> simp

theorem Indexes.isSome_find? (h : Indexes seen items) :
    (items.find? (· == a)).isSome = seen[a]?.isSome := by
  rw [← h.key, Std.HashMap.isSome_getKey?_eq_contains, Std.HashMap.contains_eq_isSome_getElem?]

/-- An item that is equal to an earlier one changes nothing. -/
theorem Indexes.again (h : Indexes seen items) {first : Nat} (ha : seen[a]? = some first) :
    Indexes seen (items ++ [a]) := by
  have hkey : (items.find? (· == a)).isSome = true := by
    rw [h.isSome_find?, ha]
    rfl
  constructor
  · intro b
    rw [h.position, List.findIdx?_append]
    by_cases hab : (a == b) = true
    · rw [← beq_congr hab, ← h.position, ha]
      rfl
    · simp [hab]
  · intro b
    rw [h.key, List.find?_append]
    by_cases hab : (a == b) = true
    · rw [← beq_congr hab, Option.or_of_isSome hkey]
    · simp [hab]

/-- An item that is equal to none before it becomes a key. -/
theorem Indexes.insert (h : Indexes seen items) (ha : seen[a]? = none) :
    Indexes (seen.insert a items.length) (items ++ [a]) := by
  have hkey : items.find? (· == a) = none := by
    rw [← Option.isNone_iff_eq_none, ← Option.not_isSome, h.isSome_find?, ha]
    rfl
  constructor
  · intro b
    rw [Std.HashMap.getElem?_insert, h.position, List.findIdx?_append]
    by_cases hab : (a == b) = true
    · rw [if_pos hab, ← beq_congr hab, ← h.position, ha]
      simp
    · simp [hab]
  · intro b
    rw [Std.HashMap.getKey?_insert, h.key, List.find?_append]
    by_cases hab : (a == b) = true
    · rw [if_pos hab, ← beq_congr hab, hkey]
      simp
    · simp [hab]

omit [EquivBEq α] [LawfulHashable α] in
/-- What has been found stays the first, whatever comes behind. -/
theorem Indexes.findIdx_append (h : Indexes seen items) {j : Nat} (ha : seen[a]? = some j)
    (rest : List α) : (items ++ rest).findIdx (· == a) = j := by
  have hwhole : (items ++ rest).findIdx? (· == a) = some j := by
    rw [List.findIdx?_append, ← h.position, ha]
    rfl
  exact (List.findIdx?_eq_some_iff_findIdx_eq.mp hwhole).2

/-- The walk tells of each item where the first one is that is equal to it. -/
theorem walk_spec (h : Indexes seen items) (rest : List α) :
    (walk seen items.length rest).1 = rest.map (fun a => (items ++ rest).findIdx (· == a)) ∧
      Indexes (walk seen items.length rest).2 (items ++ rest) := by
  induction rest generalizing seen items with
  | nil =>
      rw [List.append_nil]
      exact ⟨rfl, h⟩
  | cons a rest ih =>
      have hcons : items ++ a :: rest = items ++ [a] ++ rest := by simp
      have hlength : items.length + 1 = (items ++ [a]).length := by simp
      rw [walk_cons, hcons, hlength, List.map_cons]
      cases ha : seen[a]? with
      | some first =>
          obtain ⟨hfirsts, hindexes⟩ := ih (h.again ha)
          rw [(h.again ha).findIdx_append ha rest]
          exact ⟨congrArg (first :: ·) hfirsts, hindexes⟩
      | none =>
          obtain ⟨hfirsts, hindexes⟩ := ih (h.insert ha)
          rw [(h.insert ha).findIdx_append Std.HashMap.getElem?_insert_self rest]
          exact ⟨congrArg (items.length :: ·) hfirsts, hindexes⟩

end Grouping

namespace Run

variable {σ : Type} (h : Hasher σ) (runs : List Run)

/-- Runs as the keys of hash maps that use a hasher. -/
abbrev hashableWith : Hashable Run := ⟨hashWith h⟩

/-- The grouping by a hash map that uses the hasher. -/
def groupWith : Grouping :=
  letI := hashableWith h
  group runs

/-- What is in that hash map in the end: the keys and their positions. -/
def keysWith : List (Run × Nat) :=
  letI := hashableWith h
  (Grouping.walk ∅ 0 runs).2.toList

/-- The first of the items that have the identity of `r` is `first`, at position `j`. -/
structure IsFirst (r : Run) (j : Nat) (first : Run) : Prop where
  stands : runs[j]? = some first
  same : first.identity = r.identity
  earlier : ∀ k < j, ∀ q, runs[k]? = some q → q.identity ≠ r.identity

variable {h runs} {r key : Run} {j : Nat}

theorem lawfulHashableWith : @LawfulHashable Run _ (hashableWith h) :=
  letI := hashableWith h
  ⟨fun _ _ hab => hashWith_congr h hab⟩

/-! ## What is in the map -/

theorem groupWith_eq (h : Hasher σ) (runs : List Run) : groupWith h runs =
    ⟨runs.map fun r => runs.findIdx (· == r), (keysWith h runs).length⟩ := by
  let := hashableWith h
  have := lawfulHashableWith (h := h)
  obtain ⟨hfirsts, -⟩ := Grouping.walk_spec Grouping.indexes_empty runs
  have hlength : (keysWith h runs).length = (Grouping.walk ∅ 0 runs).2.size :=
    Std.HashMap.length_toList
  rw [hlength]
  exact congrArg (Grouping.mk · _) hfirsts

theorem mem_keysWith : (key, j) ∈ keysWith h runs ↔
    runs.find? (· == key) = some key ∧ runs.findIdx? (· == key) = some j := by
  let := hashableWith h
  have := lawfulHashableWith (h := h)
  obtain ⟨-, hindexes⟩ := Grouping.walk_spec Grouping.indexes_empty runs
  rw [List.nil_append] at hindexes
  rw [← hindexes.key, ← hindexes.position]
  exact Std.HashMap.mem_toList_iff_getKey?_eq_some_and_getElem?_eq_some

theorem keysWith_distinct : (keysWith h runs).Pairwise fun a b => (a.1 == b.1) = false :=
  let := hashableWith h
  have := lawfulHashableWith (h := h)
  Std.HashMap.distinct_keys_toList

/-! ## Who is found where -/

theorem exists_isFirst (hr : r ∈ runs) : ∃ first, runs.find? (· == r) = some first ∧
    runs.findIdx? (· == r) = some (runs.findIdx (· == r)) ∧
      IsFirst runs r (runs.findIdx (· == r)) first := by
  have hex : ∃ x ∈ runs, (x == r) = true := ⟨r, hr, BEq.rfl⟩
  obtain ⟨first, hfirst⟩ : ∃ first, runs[runs.findIdx (· == r)]? = some first :=
    ⟨_, List.getElem?_eq_getElem (List.findIdx_lt_length_of_exists hex)⟩
  refine ⟨first, ?_, List.findIdx?_eq_some_of_exists hex, hfirst, ?_, ?_⟩
  · rw [List.find?_eq_getElem?_findIdx, hfirst]
  · exact beq_iff.mp (List.findIdx_of_getElem?_eq_some (p := (· == r)) hfirst)
  · intro k hk q hq hsame
    obtain ⟨hlt, rfl⟩ := List.getElem?_eq_some_iff.mp hq
    have hbefore := List.not_of_lt_findIdx hk
    rw [beq_iff.mpr hsame] at hbefore
    cases hbefore

/-- The first of the items that are equal to `r` is what is found in place of `r`. -/
theorem eq_of_mem_keysWith {first : Run} (hfirst : runs.find? (· == r) = some first)
    (hj : runs.findIdx? (· == r) = some j) {entry : Run × Nat} :
    entry ∈ keysWith h runs ∧ (entry.1 == r) = true ↔ entry = (first, j) := by
  obtain ⟨key, k⟩ := entry
  rw [mem_keysWith]
  constructor
  · rintro ⟨⟨hkey, hk⟩, hsame⟩
    rw [Grouping.beq_congr hsame, hfirst] at hkey
    rw [Grouping.beq_congr hsame, hj] at hk
    rw [Option.some.inj hkey, Option.some.inj hk]
  · rintro heq
    obtain ⟨rfl, rfl⟩ := Prod.mk.inj heq
    have hsame : (key == r) = true := List.find?_some (p := (· == r)) hfirst
    rw [Grouping.beq_congr hsame]
    exact ⟨⟨hfirst, hj⟩, hsame⟩

/-- There are as many keys as there are identities. -/
theorem length_keysWith : (keysWith h runs).length = (runs.map identity).dedup.length := by
  have hnodup : ((keysWith h runs).map (·.1.identity)).Nodup := by
    rw [List.Nodup, List.pairwise_map]
    refine keysWith_distinct.imp ?_
    intro a b hne heq
    rw [beq_iff.mpr heq] at hne
    cases hne
  have hperm : ((keysWith h runs).map (·.1.identity)).Perm (runs.map identity).dedup := by
    rw [List.perm_ext_iff_of_nodup hnodup (List.nodup_dedup _)]
    intro p
    rw [List.mem_dedup, List.mem_map, List.mem_map]
    constructor
    · rintro ⟨⟨key, j⟩, hentry, rfl⟩
      exact ⟨key, List.mem_of_find?_eq_some (mem_keysWith.mp hentry).1, rfl⟩
    · rintro ⟨r, hr, rfl⟩
      obtain ⟨first, hfirst, hj, hisFirst⟩ := exists_isFirst hr
      have hentry := ((eq_of_mem_keysWith (h := h) hfirst hj).mpr rfl).1
      exact ⟨_, hentry, hisFirst.same⟩
  rw [← hperm.length_eq, List.length_map]

/-- The grouping can be read off the identities. -/
theorem groupWith_eq_identity (h : Hasher σ) (runs : List Run) : groupWith h runs =
    ⟨(runs.map identity).map fun p => (runs.map identity).idxOf p,
      (runs.map identity).dedup.length⟩ := by
  rw [groupWith_eq, length_keysWith, List.map_map]
  congr 2
  ext1 r
  rw [Function.comp_apply, List.idxOf, List.findIdx_map]
  rfl

theorem group_eq_groupWith (runs : List Run) : group runs = groupWith .mixing runs := rfl

theorem identity_mapIdx_migrate (runs : List Run) (executor : Nat → String) :
    (runs.mapIdx fun i r => r.migrate (executor i)).map identity = runs.map identity := by
  apply List.ext_getElem?
  intro i
  rw [List.getElem?_map, List.getElem?_map, List.getElem?_mapIdx, Option.map_map]
  rfl

/-! ## Runs as keys -/

/-- What becomes of runs that are put into a hash map, one after the other. -/
structure Keyed (h : Hasher σ) (runs : List Run) : Prop where
  /-- There are as many keys as identities. -/
  count : (groupWith h runs).count = (runs.map identity).dedup.length
  keys : (keysWith h runs).length = (groupWith h runs).count
  positions : (groupWith h runs).firsts.length = runs.length
  /-- Each item is found under the first one that has its identity, and under no other. -/
  found : ∀ (i : Nat) (r : Run), runs[i]? = some r → ∃ j first, IsFirst runs r j first ∧
    (groupWith h runs).firsts[i]? = some j ∧
      ∀ entry, entry ∈ keysWith h runs ∧ (entry.1 == r) = true ↔ entry = (first, j)
  /-- Wherever the runs are executed, and whichever hasher is used, the groups are the same. -/
  moved : ∀ (τ : Type) (h' : Hasher τ) (executor : Nat → String),
    groupWith h' (runs.mapIdx fun i r => r.migrate (executor i)) = groupWith h runs
  library : group runs = groupWith h runs

theorem keyed (h : Hasher σ) (runs : List Run) : Keyed h runs where
  count := by
    rw [groupWith_eq_identity]
  keys := by
    rw [groupWith_eq]
  positions := by
    rw [groupWith_eq, List.length_map]
  found := by
    intro i r hi
    obtain ⟨first, hfirst, hj, hisFirst⟩ := exists_isFirst (List.mem_of_getElem? hi)
    refine ⟨_, first, hisFirst, ?_, fun _ => eq_of_mem_keysWith hfirst hj⟩
    rw [groupWith_eq, List.getElem?_map, hi]
    rfl
  moved := by
    intro τ h' executor
    rw [groupWith_eq_identity, groupWith_eq_identity, identity_mapIdx_migrate]
  library := by
    rw [group_eq_groupWith, groupWith_eq_identity, groupWith_eq_identity]

/-- **Runs as keys.** Equality of runs is an equivalence, by which those are equal that are of the
same flow version and have the same id, and equal runs feed the same to every hasher.  So a hash map
has a key for each identity among the runs that are put into it, and finds each run under the first
one that has its identity; the executors, all of which may be changed, do not matter. -/
theorem keyed_by_identity :
    (Equivalence fun a b : Run => (a == b) = true) ∧
    (∀ a b : Run, (a == b) = true ↔
      (a.flow.flow = b.flow.flow ∧ a.flow.version = b.flow.version) ∧
        a.origin.host = b.origin.host ∧ a.origin.number = b.origin.number) ∧
    (∀ (σ : Type) (h : Hasher σ) (a b : Run), (a == b) = true →
      ∀ acc, a.feed h acc = b.feed h acc) ∧
    ∀ (σ : Type) (h : Hasher σ) (runs : List Run), Keyed h runs := by
  refine ⟨⟨fun _ => BEq.rfl, BEq.symm, BEq.trans⟩, ?_, fun _ h _ _ hab => feed_congr hab h,
    fun _ h runs => keyed h runs⟩
  intro a b
  rw [beq_iff, identity, identity, Prod.mk.injEq, FlowVersion.ext_iff, HostId.ext_iff]

/-- Two hosts execute the first run; the second one is of another version of the flow. -/
example : group (α := Run) [⟨⟨"build", 1⟩, ⟨"h", 4⟩, "x"⟩, ⟨⟨"build", 2⟩, ⟨"h", 4⟩, "x"⟩,
    ⟨⟨"build", 1⟩, ⟨"h", 4⟩, "y"⟩] = ⟨[0, 1, 0], 2⟩ := by
  rw [group_eq_groupWith, groupWith_eq_identity]
  decide

end Run

end FlowEvents
