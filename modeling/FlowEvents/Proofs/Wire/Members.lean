import FlowEvents.Proofs.Wire.Refusals
import FlowEvents.Proofs.Wire.RoundTrip
import Mathlib.Data.List.Nodup

/-! # What the members of an object are read as

An object is given by its members in text order, with any names and repetitions; half of a surrogate
pair is no name, and nobody gets past it.  `Taken` tells what a record takes from them, and
`Misread` which of the faults that they have is reported: that of the first faulty member, and if
there is none that of the first field that is missing.

Neither knows of slots.  What the slots hold after some members is `Slots.Filled`, which every
further member keeps unless it is faulty.
-/

namespace FlowEvents.Wire

/-! ## Members by name -/

/-- The values that stand under a name, in text order. -/
def valuesOf (name : String) (members : List (String × Json)) : List Json :=
  members.filterMap fun m => if m.1 = name then some m.2 else none

theorem valuesOf_append (name : String) (front back : List (String × Json)) :
    valuesOf name (front ++ back) = valuesOf name front ++ valuesOf name back :=
  List.filterMap_append

theorem valuesOf_cons_same (name : String) (value : Json) (members : List (String × Json)) :
    valuesOf name ((name, value) :: members) = value :: valuesOf name members := by
  simp [valuesOf]

theorem valuesOf_concat_same (name : String) (value : Json) (past : List (String × Json)) :
    valuesOf name (past ++ [(name, value)]) = valuesOf name past ++ [value] := by
  rw [valuesOf_append, valuesOf_cons_same]
  rfl

theorem valuesOf_concat_other {name other : String} (h : other ≠ name) (value : Json)
    (past : List (String × Json)) :
    valuesOf name (past ++ [(other, value)]) = valuesOf name past := by
  simp [valuesOf, h]

/-! ## What is taken and what is reported -/

/-- A field takes the one value that stands under its name.  Where none does, it takes what its
absence stands for. -/
def Field.Takes (f : Field) (members : List (String × Json)) (x : f.Value) : Prop :=
  (∃ j, valuesOf f.name members = [j] ∧ f.read j = .ok x) ∨
    valuesOf f.name members = [] ∧ f.absent = some x

/-- A field that must be there is not. -/
def Field.Missing (f : Field) (members : List (String × Json)) : Prop :=
  valuesOf f.name members = [] ∧ f.absent = none

/-- What all fields take, each for itself. -/
def Taken (members : List (String × Json)) : (fs : List Field) → Values fs → Prop
  | [], () => True
  | f :: fs, (x, xs) => f.Takes members x ∧ Taken members fs xs

/-- The fault of a member with others in front of it: it repeats a field, and then nobody looks at
its value, or its value does not read as that of its field. -/
def Faulty (fs : List Field) (past : List (String × Json)) (m : String × Json) (fault : Fault) :
    Prop :=
  ∃ f ∈ fs, f.name = m.1 ∧
    (valuesOf m.1 past ≠ [] ∧ fault = .unsuited (.duplicateField m.1) ∨
      valuesOf m.1 past = [] ∧ f.read m.2 = .error fault)

/-- No member has a fault. -/
def Faultless (fs : List Field) (members : List (String × Json)) : Prop :=
  ∀ past m rest, members = past ++ m :: rest → ¬ ∃ fault, Faulty fs past m fault

/-- The fault that is reported. -/
inductive Misread (fs : List Field) (members : List (String × Json)) : Fault → Prop
  | member (past : List (String × Json)) (m : String × Json) (rest : List (String × Json))
      (fault : Fault) (hmembers : members = past ++ m :: rest) (hpast : Faultless fs past)
      (hfault : Faulty fs past m fault) : Misread fs members fault
  | missing (front : List Field) (f : Field) (back : List Field) (hfs : fs = front ++ f :: back)
      (hmembers : Faultless fs members) (hmissing : f.Missing members)
      (hfront : ∀ g ∈ front, ¬ g.Missing members) :
      Misread fs members (.unsuited (.missingField f.name))

variable {fs : List Field} {members past : List (String × Json)}

theorem Field.Takes.not_missing {f : Field} {x : f.Value} (h : f.Takes members x) :
    ¬ f.Missing members := by
  rintro ⟨hnone, habsent⟩
  rcases h with ⟨j, hj, -⟩ | ⟨-, hx⟩
  · rw [hnone] at hj
    cases hj
  · rw [habsent] at hx
    cases hx

theorem Taken.exists_takes {xs : Values fs} (h : Taken members fs xs) :
    ∀ f ∈ fs, ∃ x, f.Takes members x := by
  induction fs with
  | nil =>
      intro f hf
      cases hf
  | cons g fs ih =>
      obtain ⟨x, xs⟩ := xs
      obtain ⟨hx, hxs⟩ := h
      intro f hf
      rcases List.mem_cons.mp hf with rfl | hf
      · exact ⟨x, hx⟩
      · exact ih hxs f hf

/-- A field that takes something has no faulty members. -/
theorem Taken.faultless {xs : Values fs} (h : Taken members fs xs) : Faultless fs members := by
  rintro past ⟨name, value⟩ rest rfl ⟨fault, f, hf, hname, hfault⟩
  obtain rfl : f.name = name := hname
  obtain ⟨x, hx⟩ := h.exists_takes f hf
  rw [Field.Takes, valuesOf_append, valuesOf_cons_same] at hx
  rcases hx with ⟨j, hj, hread⟩ | ⟨hnil, -⟩
  · rcases hfault with ⟨hsome, -⟩ | ⟨hnone, herror⟩
    · -- one value is not enough for two members
      obtain ⟨first, front, hfront⟩ := List.exists_cons_of_ne_nil hsome
      dsimp only at hfront
      rw [hfront] at hj
      simp at hj
    · dsimp only at hnone herror
      rw [hnone] at hj
      obtain ⟨rfl, -⟩ := List.cons.inj hj
      rw [hread] at herror
      cases herror
  · simp at hnil

theorem Misread.not_taken {fault : Fault} (h : Misread fs members fault) (xs : Values fs) :
    ¬ Taken members fs xs := by
  intro hxs
  cases h with
  | member past m rest fault hmembers hpast hfault =>
      exact hxs.faultless past m rest hmembers ⟨fault, hfault⟩
  | missing front f back hfs hmembers hmissing hfront =>
      obtain ⟨x, hx⟩ := hxs.exists_takes f (by simp [hfs])
      exact hx.not_missing hmissing

/-! ## There is one fault to report -/

theorem Faulty.unique {m : String × Json} {fault fault' : Fault}
    (hnames : (fs.map Field.name).Nodup) (h : Faulty fs past m fault)
    (h' : Faulty fs past m fault') : fault = fault' := by
  obtain ⟨f, hf, hname, h⟩ := h
  obtain ⟨g, hg, hname', h'⟩ := h'
  obtain rfl : f = g := List.inj_on_of_nodup_map hnames hf hg (hname.trans hname'.symm)
  rcases h with ⟨hsome, rfl⟩ | ⟨hnone, hread⟩
  · rcases h' with ⟨-, rfl⟩ | ⟨hnone, -⟩
    · rfl
    · exact absurd hnone hsome
  · rcases h' with ⟨hsome, -⟩ | ⟨-, hread'⟩
    · exact absurd hnone hsome
    · exact Except.error.inj (hread.symm.trans hread')

/-- What comes first of its kind comes first in one place only. -/
theorem eq_of_first {α : Type*} {P : List α → α → Prop} {front front' back back' : List α}
    {a a' : α} (heq : front ++ a :: back = front' ++ a' :: back') (ha : P front a)
    (ha' : P front' a') (hfront : ∀ past b rest, front = past ++ b :: rest → ¬ P past b)
    (hfront' : ∀ past b rest, front' = past ++ b :: rest → ¬ P past b) :
    front = front' ∧ a = a' := by
  rcases List.append_eq_append_iff.mp heq with ⟨between, rfl, hback⟩ | ⟨between, rfl, hback⟩
  · cases between with
    | nil => exact ⟨(List.append_nil _).symm, (List.cons.inj hback).1⟩
    | cons b between =>
        obtain ⟨rfl, -⟩ := List.cons.inj hback
        exact absurd ha (hfront' front a between rfl)
  · cases between with
    | nil => exact ⟨List.append_nil _, (List.cons.inj hback).1.symm⟩
    | cons b between =>
        obtain ⟨rfl, -⟩ := List.cons.inj hback
        exact absurd ha' (hfront front' a' between rfl)

theorem Misread.unique {fault fault' : Fault} (hnames : (fs.map Field.name).Nodup)
    (h : Misread fs members fault) (h' : Misread fs members fault') : fault = fault' := by
  cases h with
  | member past m rest _ hmembers hpast hfault =>
      cases h' with
      | member past' m' rest' _ hmembers' hpast' hfault' =>
          obtain ⟨rfl, rfl⟩ := eq_of_first (P := fun past m => ∃ fault, Faulty fs past m fault)
            (hmembers.symm.trans hmembers') ⟨fault, hfault⟩ ⟨fault', hfault'⟩ hpast hpast'
          exact hfault.unique hnames hfault'
      | missing _ _ _ _ hmembers' =>
          exact absurd ⟨fault, hfault⟩ (hmembers' past m rest hmembers)
  | missing front f back hfs hmembers hmissing hfront =>
      cases h' with
      | member past' m' rest' _ hmembers' hpast' hfault' =>
          exact absurd ⟨fault', hfault'⟩ (hmembers past' m' rest' hmembers')
      | missing front' f' back' hfs' _ hmissing' hfront' =>
          obtain ⟨-, rfl⟩ := eq_of_first (P := fun _ (g : Field) => g.Missing members)
            (hfs.symm.trans hfs') hmissing hmissing'
            (fun past g rest heq => hfront g (by simp [heq]))
            (fun past g rest heq => hfront' g (by simp [heq]))
          rfl

theorem faultless_nil (fs : List Field) : Faultless fs [] := by
  intro past m rest h
  cases past <;> cases h

/-- A member with a fault in front of which there is none. -/
theorem Misread.first {m : String × Json} {rest : List (String × Json)} {fault : Fault}
    (h : Faulty fs [] m fault) : Misread fs (m :: rest) fault :=
  .member [] m rest fault rfl (faultless_nil fs) h

theorem Faultless.concat {m : String × Json} (h : Faultless fs past)
    (hm : ¬ ∃ fault, Faulty fs past m fault) : Faultless fs (past ++ [m]) := by
  intro front m' rest heq
  cases rest using List.reverseRecOn with
  | nil =>
      obtain ⟨rfl, hlast⟩ := List.append_inj' heq rfl
      obtain rfl := (List.cons.inj hlast).1
      exact hm
  | append_singleton rest last =>
      rw [← List.cons_append, ← List.append_assoc] at heq
      exact h front m' rest (List.append_inj' heq rfl).1

theorem faulty_cons_other {f : Field} {m : String × Json} {fault : Fault} (h : f.name ≠ m.1) :
    Faulty (f :: fs) past m fault ↔ Faulty fs past m fault := by
  constructor
  · rintro ⟨g, hg, hname, hfault⟩
    rcases List.mem_cons.mp hg with rfl | hg
    · exact absurd hname h
    · exact ⟨g, hg, hname, hfault⟩
  · rintro ⟨g, hg, hrest⟩
    exact ⟨g, List.mem_cons_of_mem _ hg, hrest⟩

/-! ## What the slots hold -/

/-- A slot holds the value of the one member of its name so far, or nothing. -/
def Field.Holds (f : Field) (past : List (String × Json)) : Option f.Value → Prop
  | none => valuesOf f.name past = []
  | some x => ∃ j, valuesOf f.name past = [j] ∧ f.read j = .ok x

/-- A field takes what it holds in the end. -/
theorem Field.Holds.takes {f : Field} {slot : Option f.Value} (h : f.Holds members slot) :
    (∃ x, (slot <|> f.absent) = some x ∧ ∀ y, f.Takes members y ↔ y = x) ∨
      (slot <|> f.absent) = none ∧ f.Missing members := by
  cases slot with
  | some x =>
      obtain ⟨j, hj, hread⟩ := h
      refine .inl ⟨x, rfl, ?_⟩
      intro y
      simp [Field.Takes, hj, hread, eq_comm]
  | none =>
      have hnone : valuesOf f.name members = [] := h
      cases habsent : f.absent with
      | none => exact .inr ⟨rfl, hnone, habsent⟩
      | some x =>
          refine .inl ⟨x, rfl, ?_⟩
          intro y
          simp [Field.Takes, hnone, habsent, eq_comm]

namespace Slots

def Filled (past : List (String × Json)) : (fs : List Field) → Slots fs → Prop
  | [], () => True
  | f :: fs, (slot, slots) => f.Holds past slot ∧ Filled past fs slots

theorem filled_empty (fs : List Field) : Filled [] fs (empty fs) := by
  induction fs with
  | nil => trivial
  | cons f fs ih => exact ⟨rfl, ih⟩

/-- A member of another name changes nothing. -/
theorem Filled.concat_other {slots : Slots fs} (h : Filled past fs slots) {name : String}
    (hname : ∀ f ∈ fs, name ≠ f.name) (value : Json) :
    Filled (past ++ [(name, value)]) fs slots := by
  induction fs with
  | nil => trivial
  | cons f fs ih =>
      obtain ⟨slot, slots⟩ := slots
      obtain ⟨hslot, hslots⟩ := h
      refine ⟨?_, ih hslots fun g hg => hname g (List.mem_cons_of_mem _ hg)⟩
      have hvalues := valuesOf_concat_other (hname f List.mem_cons_self) value past
      cases slot with
      | none => exact hvalues.trans hslot
      | some x =>
          obtain ⟨j, hj, hread⟩ := hslot
          exact ⟨j, hvalues.trans hj, hread⟩

/-- What becomes of a member: its fault is reported, or it is taken in. -/
def Put (past : List (String × Json)) (name : String) (value : Json) (fs : List Field)
    (slots : Slots fs) : Prop :=
  (∃ fault, put name value fs slots = .error fault ∧ Faulty fs past (name, value) fault) ∨
    ∃ slots', put name value fs slots = .ok slots' ∧
      (¬ ∃ fault, Faulty fs past (name, value) fault) ∧
      Filled (past ++ [(name, value)]) fs slots'

/-- A member of the first field. -/
theorem put_first {f : Field} (hfresh : ∀ g ∈ fs, f.name ≠ g.name) {slot : Option f.Value}
    {slots : Slots fs} (hslot : f.Holds past slot) (hslots : Filled past fs slots) (value : Json) :
    Put past f.name value (f :: fs) (cons slot slots) := by
  cases slot with
  | some x =>
      obtain ⟨j, hj, -⟩ := hslot
      exact .inl ⟨_, put_again f x slots value, f, List.mem_cons_self, rfl,
        .inl ⟨by simp [hj], rfl⟩⟩
  | none =>
      have hnone : valuesOf f.name past = [] := hslot
      have hput := put_same f slots value
      cases hread : f.read value with
      | error fault =>
          rw [hread] at hput
          exact .inl ⟨fault, hput, f, List.mem_cons_self, rfl, .inr ⟨hnone, hread⟩⟩
      | ok x =>
          rw [hread] at hput
          refine .inr ⟨cons (some x) slots, hput, ?_, ⟨value, ?_, hread⟩,
            hslots.concat_other hfresh value⟩
          · rintro ⟨fault, g, hg, hname, hfault⟩
            rcases List.mem_cons.mp hg with rfl | hg
            · rcases hfault with ⟨hsome, -⟩ | ⟨-, herror⟩
              · exact hsome hnone
              · rw [hread] at herror
                cases herror
            · exact hfresh g hg hname.symm
          · rw [valuesOf_concat_same, hnone]
            rfl

theorem put_spec (hnames : (fs.map Field.name).Nodup) {slots : Slots fs}
    (h : Filled past fs slots) (name : String) {value : Json} (hvalue : value.isFormed = true) :
    Put past name value fs slots := by
  induction fs with
  | nil =>
      refine .inr ⟨(), put_nil hvalue (), ?_, trivial⟩
      rintro ⟨fault, f, hf, -⟩
      cases hf
  | cons f fs ih =>
      obtain ⟨slot, slots⟩ := slots
      obtain ⟨hslot, hslots⟩ := h
      obtain ⟨hfresh, hnames⟩ := List.nodup_cons.mp hnames
      by_cases hname : f.name = name
      · subst hname
        exact put_first (fun g hg heq => hfresh (heq ▸ List.mem_map_of_mem hg)) hslot hslots value
      · have hput := put_other hname slot slots value
        rcases ih hnames hslots with ⟨fault, herror, hfault⟩ | ⟨slots', hok, hnone, hfilled⟩
        · rw [herror] at hput
          exact .inl ⟨fault, hput, (faulty_cons_other hname).mpr hfault⟩
        · rw [hok] at hput
          refine .inr ⟨cons slot slots', hput, ?_, ?_, hfilled⟩
          · rintro ⟨fault, hfault⟩
            exact hnone ⟨fault, (faulty_cons_other hname).mp hfault⟩
          · have hone : Filled past [f] (cons slot ()) := ⟨hslot, trivial⟩
            refine (hone.concat_other ?_ value).1
            intro g hg
            rw [List.mem_singleton.mp hg]
            exact Ne.symm hname

/-- Members whose names can all be read. -/
def named (members : List (String × Json)) : List (Json.Name × Json) :=
  members.map fun m => Json.member m.1 m.2

theorem fill_named_append (slots : Slots fs) (past : List (String × Json))
    (rest : List (Json.Name × Json)) :
    fill fs slots (named past ++ rest) =
      fill fs slots (named past) >>= fun slots => fill fs slots rest := by
  induction past generalizing slots with
  | nil => rfl
  | cons first past ih =>
      show (put first.1 first.2 fs slots >>= fun slots => fill fs slots (named past ++ rest)) =
        (put first.1 first.2 fs slots >>= fun slots => fill fs slots (named past)) >>=
          fun slots => fill fs slots rest
      cases put first.1 first.2 fs slots with
      | error fault => rfl
      | ok slots => exact ih slots

theorem fill_named_concat (slots : Slots fs) (past : List (String × Json)) (m : String × Json) :
    fill fs slots (named (past ++ [m])) = fill fs slots (named past) >>= put m.1 m.2 fs := by
  rw [named, List.map_append]
  refine (fill_named_append slots past _).trans ?_
  cases fill fs slots (named past) with
  | error fault => rfl
  | ok slots =>
      show (put m.1 m.2 fs slots >>= fun slots => .ok slots) = put m.1 m.2 fs slots
      cases put m.1 m.2 fs slots <;> rfl

/-- The first faulty member ends the filling, whatever comes behind it. -/
theorem fill_spec (hnames : (fs.map Field.name).Nodup)
    (hformed : ∀ m ∈ members, m.2.isFormed = true) :
    (∃ fault, fill fs (empty fs) (named members) = .error fault ∧ ∃ past m rest,
      members = past ++ m :: rest ∧ Faultless fs past ∧ Faulty fs past m fault) ∨
      ∃ slots, fill fs (empty fs) (named members) = .ok slots ∧ Faultless fs members ∧
        Filled members fs slots := by
  induction members using List.reverseRecOn with
  | nil => exact .inr ⟨empty fs, rfl, faultless_nil fs, filled_empty fs⟩
  | append_singleton members m ih =>
      have hrest : ∀ m' ∈ members, m'.2.isFormed = true :=
        fun m' hm' => hformed m' (List.mem_append_left _ hm')
      rw [fill_named_concat]
      rcases ih hrest with ⟨fault, herror, past, m', rest, rfl, hpast, hfault⟩ |
        ⟨slots, hok, hfaultless, hfilled⟩
      · rw [herror]
        refine .inl ⟨fault, rfl, past, m', rest ++ [m], ?_, hpast, hfault⟩
        rw [List.append_assoc, List.cons_append]
      · rw [hok]
        rcases put_spec hnames hfilled m.1 (hformed m (by simp)) with ⟨fault, hput, hfault⟩ |
          ⟨slots', hput, hnone, hfilled'⟩
        · exact .inl ⟨fault, hput, members, m, [], rfl, hfaultless, hfault⟩
        · exact .inr ⟨slots', hput, hfaultless.concat hnone, hfilled'⟩

/-- In the end the fields take what they hold, and the first that has nothing is missing. -/
theorem finish_spec {slots : Slots fs} (h : Filled members fs slots) :
    (∃ xs, finish fs slots = .ok xs ∧ ∀ ys, Taken members fs ys ↔ ys = xs) ∨
      ∃ front f back, fs = front ++ f :: back ∧
        finish fs slots = .error (.unsuited (.missingField f.name)) ∧ f.Missing members ∧
        ∀ g ∈ front, ¬ g.Missing members := by
  induction fs with
  | nil => exact .inl ⟨(), rfl, fun ys => iff_of_true trivial rfl⟩
  | cons f fs ih =>
      obtain ⟨slot, slots⟩ := slots
      obtain ⟨hslot, hslots⟩ := h
      have hfinish := finish_cons slot slots
      rcases hslot.takes with ⟨x, hx, htakes⟩ | ⟨hx, hmissing⟩
      · rw [hx] at hfinish
        rcases ih hslots with ⟨xs, hxs, htaken⟩ | ⟨front, g, back, rfl, herror, hmissing, hfront⟩
        · rw [hxs] at hfinish
          refine .inl ⟨(x, xs), hfinish, ?_⟩
          rintro ⟨y, ys⟩
          have hpair : (y = x ∧ ys = xs) ↔ (y, ys) = (x, xs) := by rw [Prod.mk.injEq]
          exact (and_congr (htakes y) (htaken ys)).trans hpair
        · rw [herror] at hfinish
          refine .inr ⟨f :: front, g, back, rfl, hfinish, hmissing, ?_⟩
          intro g' hg'
          rcases List.mem_cons.mp hg' with rfl | hg'
          · exact ((htakes x).mpr rfl).not_missing
          · exact hfront g' hg'
      · rw [hx] at hfinish
        exact .inr ⟨[], f, fs, rfl, hfinish, hmissing, by simp⟩

end Slots

/-! ## Records -/

section Record

variable (title : String) (hnames : (fs.map Field.name).Nodup)
  (hformed : ∀ m ∈ members, m.2.isFormed = true)

include hnames hformed

/-- Either the record takes what is read, or what is reported is a fault of the members. -/
theorem readRecord_spec :
    (∃ xs, readRecord title fs (.ofMembers members) = .ok xs ∧
      ∀ ys, Taken members fs ys ↔ ys = xs) ∨
      ∃ fault, readRecord title fs (.ofMembers members) = .error fault ∧
        Misread fs members fault := by
  have hread : readRecord title fs (.ofMembers members) =
      Slots.fill fs (Slots.empty fs) (Slots.named members) >>= Slots.finish fs := rfl
  rw [hread]
  rcases Slots.fill_spec hnames hformed with
    ⟨fault, herror, past, m, rest, hmembers, hpast, hfault⟩ | ⟨slots, hok, hfaultless, hfilled⟩
  · rw [herror]
    exact .inr ⟨fault, rfl, .member past m rest fault hmembers hpast hfault⟩
  · rw [hok]
    rcases Slots.finish_spec hfilled with ⟨xs, hfinish, htaken⟩ |
      ⟨front, f, back, hfs, hfinish, hmissing, hfront⟩
    · exact .inl ⟨xs, hfinish, htaken⟩
    · exact .inr ⟨_, hfinish, .missing front f back hfs hfaultless hmissing hfront⟩

/-- Nobody gets past a name that cannot be read. -/
theorem readRecord_unnamed (hfaultless : Faultless fs members) (flaw : Json.Flaw) (value : Json)
    (rest : List (Json.Name × Json)) :
    readRecord title fs (.obj (Slots.named members ++ (.flawed flaw, value) :: rest)) =
      .error (.broken (b := .flawed flaw)) := by
  show Slots.fill fs (Slots.empty fs) (Slots.named members ++ (.flawed flaw, value) :: rest) >>=
    Slots.finish fs = _
  rw [Slots.fill_named_append]
  rcases Slots.fill_spec hnames hformed with
    ⟨fault, -, past, m, rest, hmembers, -, hfault⟩ | ⟨slots, hok, -, -⟩
  · exact absurd ⟨fault, hfault⟩ (hfaultless past m rest hmembers)
  · rw [hok]
    rfl

theorem readRecord_eq_ok_iff {xs : Values fs} :
    readRecord title fs (.ofMembers members) = .ok xs ↔ Taken members fs xs := by
  rcases readRecord_spec title hnames hformed with ⟨ys, hok, htaken⟩ | ⟨fault, herror, hmisread⟩
  · rw [hok, htaken, Except.ok.injEq, eq_comm]
  · rw [herror]
    exact iff_of_false (by simp) (hmisread.not_taken xs)

theorem readRecord_eq_error_iff {fault : Fault} :
    readRecord title fs (.ofMembers members) = .error fault ↔ Misread fs members fault := by
  rcases readRecord_spec title hnames hformed with ⟨ys, hok, htaken⟩ | ⟨fault', herror, hmisread⟩
  · rw [hok]
    exact iff_of_false (by simp) fun h => h.not_taken ys ((htaken ys).mpr rfl)
  · rw [herror, Except.error.injEq]
    constructor
    · rintro rfl
      exact hmisread
    · exact hmisread.unique hnames

end Record

/-! ## The wire forms -/

theorem formed_ofMembers {members : List (String × Json)}
    (h : ∀ m ∈ members, m.2.isFormed = true) : (Json.ofMembers members).isFormed = true := by
  show Json.membersFormed (members.map fun m => Json.member m.1 m.2) = true
  induction members with
  | nil => rfl
  | cons m members ih =>
      obtain ⟨hm, hmembers⟩ := List.forall_mem_cons.mp h
      rw [List.map_cons, Json.member, Json.membersFormed, hm, ih hmembers]
      rfl

/-- How a wire form with the fields `fs`, of whose values `make` makes the result, is read from an
object. -/
structure ReadsMembers {α : Type} (read : Json → Outcome α) (fs : List Field)
    (make : Values fs → α) : Prop where
  /-- A text is read as the object that it holds. -/
  text : ∀ text members, Holds text (.ofMembers members) →
    decode read text = read (.ofMembers members)
  /-- What is read is what the fields take, each for itself. -/
  accepts : ∀ members, (∀ m ∈ members, m.2.isFormed = true) → ∀ a,
    read (.ofMembers members) = .ok a ↔ ∃ xs, Taken members fs xs ∧ make xs = a
  /-- If they cannot all take something, the first faulty member is reported, or the first field
  that is missing. -/
  refuses : ∀ members, (∀ m ∈ members, m.2.isFormed = true) → ∀ fault,
    read (.ofMembers members) = .error fault ↔ Misread fs members fault
  /-- A name that cannot be read is reported where it stands. -/
  unnamed : ∀ members, (∀ m ∈ members, m.2.isFormed = true) → Faultless fs members →
    ∀ flaw value rest, read (.obj (Slots.named members ++ (.flawed flaw, value) :: rest)) =
      .error (.broken (b := .flawed flaw))
  /-- What is reported has a message. -/
  explained : ∀ members, (∀ m ∈ members, m.2.isFormed = true) →
    Explained (read (.ofMembers members))

/-- A form that is a record put together is read as the record is. -/
theorem readsMembers_of_readRecord {α : Type} {read : Json → Outcome α} {title : String}
    {make : Values fs → α} (hnames : (fs.map Field.name).Nodup)
    (hread : ∀ j, read j = (readRecord title fs j).map make)
    (hexplained : ∀ {j : Json}, j.isFormed = true → Explained (read j)) :
    ReadsMembers read fs make where
  text := fun _ _ htext => htext.decode_eq read
  accepts := by
    intro members hformed a
    rw [hread, map_eq_ok_iff]
    exact exists_congr fun xs => and_congr_left fun _ => readRecord_eq_ok_iff title hnames hformed
  refuses := by
    intro members hformed fault
    rw [hread, map_eq_error_iff, readRecord_eq_error_iff title hnames hformed]
  unnamed := by
    intro members hformed hfaultless flaw value rest
    rw [hread, readRecord_unnamed title hnames hformed hfaultless]
    rfl
  explained := fun members hformed => hexplained (formed_ofMembers hformed)

theorem readEventPayload_eq_ok_iff {j : Json} {p : Payload} :
    readEventPayload j = .ok p ↔ ∃ members ps, j = .obj members ∧
      readEntries (maxDepth - 2) members = .ok ps ∧ p.entries = Entries.ofPairs ps := by
  constructor
  · intro h
    cases j with
    | obj members =>
        cases hps : readEntries (maxDepth - 2) members with
        | error fault => exact absurd ((readPayloadWithin_eq_error hps).symm.trans h) (by simp)
        | ok ps =>
            have hp := Except.ok.inj ((readPayloadWithin_eq_ok hps).symm.trans h)
            exact ⟨members, ps, rfl, hps, by rw [← hp]⟩
    | null | bool | num | str | arr | flawed => exact absurd h wrongKind_ne_ok
  · rintro ⟨members, ps, rfl, hps, hp⟩
    refine (readPayloadWithin_eq_ok hps).trans ?_
    congr 1
    exact Payload.ext hp.symm

/-- What the fields that are no records are read from: each from JSON of its own kind. -/
structure ReadsLeaves : Prop where
  string : ∀ j s, readString j = .ok s ↔ j = .str s
  bool : ∀ j b, readBool j = .ok b ↔ j = .bool b
  word64 : ∀ j n, readUInt64 j = .ok n ↔ j = .num (.ofInt n.toNat)
  word32 : ∀ j n, readUInt32 j = .ok n ↔ j = .num (.ofInt n.toNat)
  /-- The kind of a node is its name, or an object with that name alone. -/
  kind : ∀ j k, readKind j = .ok k ↔ j = .str k.name ∨ j = .obj [(.plain k.name, .null)]
  /-- A payload is an object all of whose members are read. -/
  payload : ∀ j p, readEventPayload j = .ok p ↔ ∃ members ps, j = .obj members ∧
    readEntries (maxDepth - 2) members = .ok ps ∧ p.entries = Entries.ofPairs ps

theorem readsLeaves : ReadsLeaves where
  string _ _ := readString_eq_ok_iff
  bool _ _ := readBool_eq_ok_iff
  word64 _ _ := readUInt64_eq_ok_iff
  word32 _ _ := readUInt32_eq_ok_iff
  kind _ _ := readKind_eq_ok_iff
  payload _ _ := readEventPayload_eq_ok_iff

/-- **Objects are read exactly.** Each of the five forms is read from an object if and only if every
field takes a value from it; the order of the members does not matter, nor do members of other
names.  Otherwise the first faulty member is reported, and if there is none the first field that is
missing.  A field of a field is read by the same rule, so what is missing there is a fault of the
member that holds it.  The other fields are read from JSON of their kinds. -/
theorem objects_read_exactly :
    ReadsMembers readHostId hostIdFields (fun (host, number, ()) => { host, number }) ∧
    ReadsMembers readFlow flowFields (fun (flow, version, ()) => { flow, version }) ∧
    ReadsMembers readNode nodeFields (fun (kind, name, ()) => { kind, name }) ∧
    ReadsMembers readRun runFields
      (fun (flow, origin, executor, ()) => { flow, origin, executor }) ∧
    ReadsMembers readEvent eventFields (fun (run, source, tag, good, id, payload, ()) =>
      { run, source, tag, good, id, payload }) ∧
    ReadsLeaves :=
  ⟨readsMembers_of_readRecord (by decide) readHostId_eq explained_readHostId,
    readsMembers_of_readRecord (by decide) readFlow_eq explained_readFlow,
    readsMembers_of_readRecord (by decide) readNode_eq explained_readNode,
    readsMembers_of_readRecord (by decide) readRun_eq explained_readRun,
    readsMembers_of_readRecord (by decide) readEvent_eq explained_readEvent, readsLeaves⟩

/-- A null for a name, a number for a kind. -/
def doublyMisread : List (String × Json) :=
  [("id", .null), ("class", .num (.ofInt 5))]

/-- A member of no field, an id without a host, a flow that is none and another id. -/
def misreadRun : List (String × Json) :=
  [("note", .arr []), ("run", .ofMembers [("id", .num (.ofInt 3))]), ("flow", .num (.ofInt 7)),
    ("run", .null)]

/-- Of the faults of a text the first is told, in either order. -/
theorem objects_read_exactly_faults :
    decode readNode "\x7b\"id\":null,\"class\":5\x7d" =
        .error (.unsuited (.wrongKind .null .string)) ∧
      decode readNode "\x7b\"class\":5,\"id\":null\x7d" =
        .error (.broken (b := .noAlternative)) ∧
      decode readRun "\x7b\"note\":[],\"run\":\x7b\"id\":3\x7d,\"flow\":7,\"run\":null\x7d" =
        .error (.unsuited (.missingField "host")) := by
  obtain ⟨-, -, hnode, hrun, -⟩ := objects_read_exactly
  refine ⟨?_, ?_, ?_⟩
  · have hholds : Holds (Json.ofMembers doublyMisread).print (.ofMembers doublyMisread) :=
      holds_print ⟨⟨_, rfl⟩, trivial, ⟨_, rfl⟩, trivial, trivial⟩
    rw [show "\x7b\"id\":null,\"class\":5\x7d" = (Json.ofMembers doublyMisread).print from rfl,
      hnode.text _ _ hholds]
    refine (hnode.refuses _ (by decide) _).mpr (.first ?_)
    exact ⟨.required "id" readString, by simp [nodeFields], rfl, .inr ⟨rfl, rfl⟩⟩
  · have hholds : Holds (Json.ofMembers doublyMisread.reverse).print
        (.ofMembers doublyMisread.reverse) :=
      holds_print ⟨⟨_, rfl⟩, trivial, ⟨_, rfl⟩, trivial, trivial⟩
    rw [show "\x7b\"class\":5,\"id\":null\x7d" =
      (Json.ofMembers doublyMisread.reverse).print from rfl, hnode.text _ _ hholds]
    refine (hnode.refuses _ (by decide) _).mpr (.first ?_)
    exact ⟨.required "class" readKind, by simp [nodeFields], rfl, .inr ⟨rfl, rfl⟩⟩
  · have hholds : Holds (Json.ofMembers misreadRun).print (.ofMembers misreadRun) :=
      holds_print ⟨⟨_, rfl⟩, trivial, ⟨_, rfl⟩, ⟨⟨_, rfl⟩, trivial, trivial⟩, ⟨_, rfl⟩, trivial,
        ⟨_, rfl⟩, trivial, trivial⟩
    rw [show "\x7b\"note\":[],\"run\":\x7b\"id\":3\x7d,\"flow\":7,\"run\":null\x7d" =
      (Json.ofMembers misreadRun).print from rfl, hrun.text _ _ hholds]
    have hnote : ¬ ∃ fault, Faulty runFields [] ("note", .arr []) fault := by
      rintro ⟨fault, f, hf, hname, -⟩
      have hnames : f.name ∈ ["flow", "run", "exec_host"] := List.mem_map_of_mem hf
      rw [hname] at hnames
      exact absurd hnames (by decide)
    exact (hrun.refuses _ (by decide) _).mpr (.member [("note", .arr [])] _ _ _ rfl
      ((faultless_nil _).concat hnote)
      ⟨.required "run" readHostId, by simp [runFields], rfl, .inr ⟨rfl, rfl⟩⟩)

/-- Half of a surrogate pair, in front of the number or behind it. -/
example : decode readNode "\x7b\"id\":\"\\ud800\",\"class\":5\x7d" =
      .error (.broken (b := .flawed .openHalf)) ∧
    decode readNode "\x7b\"class\":5,\"id\":\"\\ud800\"\x7d" =
      .error (.broken (b := .noAlternative)) := by
  decide +kernel

end FlowEvents.Wire
