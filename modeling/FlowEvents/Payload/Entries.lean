/-! # Keyed entries

A payload is a list of keyed entries in strictly ascending order of their keys, by code point.  So
a key occurs at most once, and two lists with the same entries are the same list.

`insert` and `erase` keep the order; `lookup` (of the standard library) is the view: what it finds
after either is what a map would hold, and it tells all there is to know (`ext_lookup`).
-/

namespace FlowEvents.Entries

variable {α : Type}

def Ascending (entries : List (String × α)) : Prop :=
  entries.Pairwise fun a b => a.1 < b.1

/-- Puts a value under a key, in place of any value there. -/
def insert (key : String) (value : α) : List (String × α) → List (String × α)
  | [] => [(key, value)]
  | (k, v) :: rest =>
    if key < k then (key, value) :: (k, v) :: rest
    else if key = k then (key, value) :: rest
    else (k, v) :: insert key value rest

def erase (key : String) (entries : List (String × α)) : List (String × α) :=
  entries.filter fun e => e.1 != key

/-- The entries of a list of pairs in which a later pair with the same key wins. -/
def ofPairs (pairs : List (String × α)) : List (String × α) :=
  pairs.foldl (fun entries p => insert p.1 p.2 entries) []

/-! ## The order is kept -/

theorem ascending_nil : Ascending ([] : List (String × α)) := List.Pairwise.nil

theorem mem_insert {key : String} {value : α} {entries : List (String × α)} {e : String × α}
    (h : e ∈ insert key value entries) : e = (key, value) ∨ e ∈ entries := by
  induction entries with
  | nil => simpa [insert] using h
  | cons kv rest ih =>
    obtain ⟨k, v⟩ := kv
    unfold insert at h
    split at h
    next => simpa using h
    next =>
      split at h
      next =>
        rcases List.mem_cons.mp h with h | h
        · exact .inl h
        · exact .inr (List.mem_cons_of_mem _ h)
      next =>
        rcases List.mem_cons.mp h with h | h
        · exact .inr (h ▸ List.mem_cons_self)
        · exact (ih h).imp id (List.mem_cons_of_mem _)

theorem Ascending.insert {key : String} {value : α} {entries : List (String × α)}
    (h : Ascending entries) : Ascending (insert key value entries) := by
  induction entries with
  | nil => simp [Entries.insert, Ascending]
  | cons kv rest ih =>
    obtain ⟨k, v⟩ := kv
    obtain ⟨hk, hrest⟩ := List.pairwise_cons.mp h
    unfold Entries.insert
    split
    next hlt =>
      refine List.pairwise_cons.mpr ⟨fun e he => ?_, h⟩
      rcases List.mem_cons.mp he with rfl | he
      · exact hlt
      · exact String.lt_trans hlt (hk e he)
    next hnlt =>
      split
      next heq =>
        subst heq
        exact List.pairwise_cons.mpr ⟨hk, hrest⟩
      next hne =>
        refine List.pairwise_cons.mpr ⟨fun e he => ?_, ih hrest⟩
        rcases mem_insert he with rfl | he
        · by_cases hkey : k < key
          · exact hkey
          · exact absurd (String.le_antisymm (String.not_lt.mp hkey) (String.not_lt.mp hnlt)) hne
        · exact hk e he

theorem Ascending.erase {key : String} {entries : List (String × α)} (h : Ascending entries) :
    Ascending (erase key entries) :=
  List.Pairwise.sublist List.filter_sublist h

theorem mem_erase {key : String} {entries : List (String × α)} {e : String × α}
    (h : e ∈ erase key entries) : e ∈ entries :=
  (List.mem_filter.mp h).1

theorem ofPairs_concat (pairs : List (String × α)) (p : String × α) :
    ofPairs (pairs ++ [p]) = insert p.1 p.2 (ofPairs pairs) := by
  simp [ofPairs, List.foldl_append]

/-- What holds of nothing and is kept by every insertion holds of `ofPairs`. -/
theorem ofPairs_induction {motive : List (String × α) → Prop} {pairs : List (String × α)}
    (nil : motive [])
    (insert : ∀ p ∈ pairs, ∀ entries, motive entries → motive (insert p.1 p.2 entries)) :
    motive (ofPairs pairs) := by
  have go : ∀ (ps : List (String × α)) (entries : List (String × α)),
      (∀ p ∈ ps, p ∈ pairs) → motive entries →
      motive (ps.foldl (fun entries p => Entries.insert p.1 p.2 entries) entries) := by
    intro ps
    induction ps with
    | nil => exact fun _ _ h => h
    | cons p ps ih =>
      intro entries hps h
      exact ih _ (fun q hq => hps q (List.mem_cons_of_mem _ hq))
        (insert p (hps p List.mem_cons_self) entries h)
  exact go pairs [] (fun _ h => h) nil

theorem ascending_ofPairs (pairs : List (String × α)) : Ascending (ofPairs pairs) :=
  ofPairs_induction ascending_nil fun _ _ _ h => h.insert

/-! ## What is found -/

@[simp]
theorem lookup_insert (key k : String) (value : α) (entries : List (String × α)) :
    (insert key value entries).lookup k = if k = key then some value else entries.lookup k := by
  induction entries with
  | nil =>
    by_cases h : k = key
    · simp [insert, h]
    · simp [insert, List.lookup_cons, beq_false_of_ne h, h]
  | cons e rest ih =>
    obtain ⟨l, v⟩ := e
    unfold insert
    split
    next =>
      by_cases h : k = key
      · simp [h]
      · simp [List.lookup_cons, beq_false_of_ne h, h]
    next =>
      split
      next heq =>
        subst heq
        by_cases h : k = key
        · simp [h]
        · simp [List.lookup_cons, beq_false_of_ne h, h]
      next hne =>
        by_cases h : k = l
        · subst h
          simp [Ne.symm hne]
        · simp [List.lookup_cons, beq_false_of_ne h, ih]

@[simp]
theorem lookup_erase (key k : String) (entries : List (String × α)) :
    (erase key entries).lookup k = if k = key then none else entries.lookup k := by
  induction entries with
  | nil => simp [erase]
  | cons e rest ih =>
    obtain ⟨l, v⟩ := e
    unfold erase at ih ⊢
    by_cases hl : l = key
    · subst hl
      by_cases h : k = l
      · simp [h] at ih ⊢
        exact ih
      · simp [List.lookup_cons, beq_false_of_ne h, h] at ih ⊢
        exact ih
    · by_cases h : k = l
      · subst h
        simp [hl]
      · simp [hl, List.lookup_cons, beq_false_of_ne h, ih]

/-- Of the pairs with a key the last one is found. -/
theorem lookup_ofPairs (pairs : List (String × α)) (k : String) :
    (ofPairs pairs).lookup k = pairs.reverse.lookup k := by
  have go : ∀ (ps entries : List (String × α)),
      (ps.foldl (fun entries p => insert p.1 p.2 entries) entries).lookup k =
        (ps.reverse ++ entries).lookup k := by
    intro ps
    induction ps with
    | nil => exact fun _ => rfl
    | cons p ps ih =>
      intro entries
      rw [List.foldl_cons, ih, List.reverse_cons, List.append_assoc, List.lookup_append,
        List.lookup_append, lookup_insert, List.singleton_append, List.lookup_cons]
      by_cases h : k = p.1
      · simp [h]
      · simp [beq_false_of_ne h, h]
  rw [ofPairs, go pairs [], List.append_nil]

theorem mem_of_lookup {key : String} {value : α} {entries : List (String × α)}
    (h : entries.lookup key = some value) : (key, value) ∈ entries := by
  induction entries with
  | nil => simp at h
  | cons e rest ih =>
    obtain ⟨l, v⟩ := e
    by_cases hk : key = l
    · subst hk
      simp at h
      subst h
      exact List.mem_cons_self
    · rw [List.lookup_cons, beq_false_of_ne hk] at h
      exact List.mem_cons_of_mem _ (ih h)

theorem Ascending.lookup_of_mem {key : String} {value : α} {entries : List (String × α)}
    (h : Ascending entries) (hm : (key, value) ∈ entries) : entries.lookup key = some value := by
  induction entries with
  | nil => cases hm
  | cons e rest ih =>
    obtain ⟨hlt, hrest⟩ := List.pairwise_cons.mp h
    rcases List.mem_cons.mp hm with rfl | hm
    · simp
    · have hne : key ≠ e.1 := by
        intro heq
        have hbad := hlt _ hm
        simp only [heq] at hbad
        exact String.lt_irrefl _ hbad
      rw [List.lookup_cons, beq_false_of_ne hne]
      exact ih hrest hm

/-- Two ascending lists in which the same is found are the same list. -/
theorem Ascending.ext_lookup {as bs : List (String × α)} (ha : Ascending as) (hb : Ascending bs)
    (h : ∀ k, as.lookup k = bs.lookup k) : as = bs := by
  have hmem : ∀ e, e ∈ as ↔ e ∈ bs := fun e =>
    ⟨fun he => mem_of_lookup ((h e.1).symm.trans (ha.lookup_of_mem he)),
      fun he => mem_of_lookup ((h e.1).trans (hb.lookup_of_mem he))⟩
  have nodup : ∀ {es : List (String × α)}, Ascending es → es.Nodup := by
    intro es hes
    refine List.Pairwise.imp ?_ hes
    rintro a b hlt rfl
    exact String.lt_irrefl _ hlt
  have hperm : as.Perm bs := (List.perm_ext_iff_of_nodup (nodup ha) (nodup hb)).mpr hmem
  exact hperm.eq_of_pairwise (fun _ _ _ _ hab hba => absurd hba (String.lt_asymm hab)) ha hb

end FlowEvents.Entries
