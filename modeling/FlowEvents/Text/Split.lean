/-! # Splitting at the last separator

`splitLast d cs` cuts a text at the last occurrence of `d`.  The part before may hold `d` again,
the part after never does, so the cut of `host ++ d :: rest` gives back `host` for any host at all
as long as `rest` is free of `d`.
-/

namespace FlowEvents.Text

/-- The parts before and after the last `d`, if there is one. -/
def splitLast (d : Char) : List Char → Option (List Char × List Char)
  | [] => none
  | c :: cs =>
    match splitLast d cs with
    | some (before, after) => some (c :: before, after)
    | none => if c = d then some ([], cs) else none

theorem splitLast_eq_none_iff {d : Char} {cs : List Char} :
    splitLast d cs = none ↔ d ∉ cs := by
  induction cs with
  | nil => simp [splitLast]
  | cons c cs ih =>
    unfold splitLast
    cases h : splitLast d cs with
    | none =>
      have := ih.mp h
      by_cases hc : c = d
      · simp [hc]
      · simp [hc, this, Ne.symm hc]
    | some p =>
      have : d ∈ cs := by
        by_cases hm : d ∈ cs
        · exact hm
        · rw [ih.mpr hm] at h
          cases h
      simp [this]

theorem splitLast_append_cons {d : Char} {before after : List Char} (h : d ∉ after) :
    splitLast d (before ++ d :: after) = some (before, after) := by
  induction before with
  | nil => simp [splitLast, splitLast_eq_none_iff.mpr h]
  | cons c before ih => simp [splitLast, ih]

theorem eq_append_of_splitLast {d : Char} {cs before after : List Char}
    (h : splitLast d cs = some (before, after)) :
    cs = before ++ d :: after ∧ d ∉ after := by
  induction cs generalizing before with
  | nil => simp [splitLast] at h
  | cons c cs ih =>
    unfold splitLast at h
    split at h
    next before' after' hs =>
      obtain ⟨rfl, rfl⟩ := by simpa using h
      obtain ⟨rfl, hd⟩ := ih hs
      exact ⟨rfl, hd⟩
    next hs =>
      split at h
      next hc =>
        obtain ⟨rfl, rfl⟩ := by simpa using h
        exact ⟨by simp [hc], splitLast_eq_none_iff.mp hs⟩
      next => cases h

/-- The last separator parts a text in one way only. -/
theorem glue_inj {d : Char} {sep before before' after after' : String} (hsep : sep.toList = [d])
    (hafter : d ∉ after.toList) (hafter' : d ∉ after'.toList)
    (heq : before ++ sep ++ after = before' ++ sep ++ after') :
    before = before' ∧ after = after' := by
  have hsplit := congrArg (fun s => splitLast d s.toList) heq
  simp only [String.toList_append, hsep, List.append_assoc, List.singleton_append,
    splitLast_append_cons hafter, splitLast_append_cons hafter', Option.some.injEq,
    Prod.mk.injEq] at hsplit
  exact ⟨String.toList_injective hsplit.1, String.toList_injective hsplit.2⟩

end FlowEvents.Text
