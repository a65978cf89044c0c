import FlowEvents.Proofs.Wire.Trees
import FlowEvents.Wire.Forms

/-! # What single values are read from

A string, a truth value and a word are read from JSON of one kind only, and a word from one literal
only.  A node's kind has two forms.  So whatever stands in the place of such a field tells what the
field takes.
-/

namespace FlowEvents.Wire

open Decimal (Binary64 Literal)

variable {j : Json}

theorem wrongKind_ne_ok {α : Type} {expected : Expected} {x : α} :
    wrongKind expected j ≠ .ok x := by
  intro h
  obtain ⟨found, -, h⟩ := bind_eq_ok_iff.mp h
  cases h

theorem readString_eq_ok_iff {s : String} : readString j = .ok s ↔ j = .str s := by
  unfold readString
  split
  next => rw [Except.ok.injEq, Json.str.injEq]
  next hother => exact iff_of_false wrongKind_ne_ok (hother s)

theorem readBool_eq_ok_iff {b : Bool} : readBool j = .ok b ↔ j = .bool b := by
  unfold readBool
  split
  next => rw [Except.ok.injEq, Json.bool.injEq]
  next hother => exact iff_of_false wrongKind_ne_ok (hother b)

theorem readUnit_eq_ok_iff : readUnit j = .ok () ↔ j = .null := by
  unfold readUnit
  split
  next => exact iff_of_true rfl rfl
  next hother => exact iff_of_false wrongKind_ne_ok hother

/-! ## Words -/

/-- A literal that spells an integer is the literal of that integer. -/
theorem integer?_eq_some_iff {l : Literal} {n : Int} : l.integer? = some n ↔ l = .ofInt n := by
  constructor
  · intro h
    obtain ⟨negative, whole, fraction, exponent, hdigits⟩ := l
    unfold Literal.integer? at h
    dsimp only at h
    split_ifs at h with hother hnegative
    · simp only [ne_eq, not_or, not_and, not_not] at hother
      obtain ⟨rfl, rfl, hzero⟩ := hother
      have hzero := hzero hnegative
      have hn := Option.some.inj h
      simp only [Literal.ofInt, Literal.mk.injEq, and_true]
      exact ⟨by rw [hnegative, eq_comm, decide_eq_true_eq]; omega, by omega⟩
    · simp only [ne_eq, not_or, not_and, not_not] at hother
      obtain ⟨rfl, rfl, -⟩ := hother
      have hn := Option.some.inj h
      rw [Bool.not_eq_true] at hnegative
      simp only [Literal.ofInt, Literal.mk.injEq, and_true]
      exact ⟨by rw [hnegative, eq_comm, decide_eq_false_iff_not]; omega, by omega⟩
  · rintro rfl
    exact integer?_ofInt n

theorem ofInt_inj {m n : Int} (h : Literal.ofInt m = .ofInt n) : m = n := by
  have hinteger := congrArg Literal.integer? h
  rw [integer?_ofInt, integer?_ofInt] at hinteger
  exact Option.some.inj hinteger

theorem ofLiteral?_eq_integer {l : Literal} {n : Int}
    (h : Number.ofLiteral? l = some (.integer n)) : l = .ofInt n := by
  have hfloat : ∀ {x? : Option Binary64}, x?.map Number.float ≠ some (.integer n) := by
    intro x? hx
    obtain ⟨x, -, hx⟩ := Option.map_eq_some_iff.mp hx
    cases hx
  unfold Number.ofLiteral? at h
  dsimp only at h
  split at h
  next m hm =>
    split_ifs at h
    · obtain rfl : m = n := Number.integer.inj (Option.some.inj h)
      exact integer?_eq_some_iff.mp hm
    · exact absurd h hfloat
  next => exact absurd h hfloat

theorem readNat_eq_ok_iff {width n : Nat} (hwidth : width ≤ 64) :
    readNat width j = .ok n ↔ j = .num (.ofInt n) ∧ n < 2 ^ width := by
  constructor
  · intro h
    unfold readNat at h
    split at h
    next l =>
      split at h
      next m hm =>
        split_ifs at h with hrange
        obtain rfl : m.toNat = n := Except.ok.inj h
        have hback : (m.toNat : Int) = m := Int.toNat_of_nonneg hrange.1
        refine ⟨?_, by exact_mod_cast hback ▸ hrange.2⟩
        rw [ofLiteral?_eq_integer hm, hback]
      next => exact absurd h wrongKind_ne_ok
    next => exact absurd h wrongKind_ne_ok
  · rintro ⟨rfl, hn⟩
    have hword : 2 ^ width ≤ 2 ^ 64 := Nat.pow_le_pow_right (by decide) hwidth
    have hliteral : Number.ofLiteral? (.ofInt n) = some (.integer n) :=
      ofLiteral?_ofInt (by omega) (by omega)
    have hrange : 0 ≤ (n : Int) ∧ (n : Int) < 2 ^ width := ⟨by omega, by exact_mod_cast hn⟩
    rw [readNat, hliteral]
    exact if_pos hrange

theorem readUInt64_eq_ok_iff {n : UInt64} :
    readUInt64 j = .ok n ↔ j = .num (.ofInt n.toNat) := by
  rw [readUInt64, map_eq_ok_iff]
  constructor
  · rintro ⟨m, hm, rfl⟩
    obtain ⟨rfl, hlt⟩ := (readNat_eq_ok_iff (by decide)).mp hm
    rw [UInt64.toNat_ofNat_of_lt' hlt]
  · rintro rfl
    exact ⟨n.toNat, (readNat_eq_ok_iff (by decide)).mpr ⟨rfl, n.toNat_lt⟩, UInt64.ofNat_toNat⟩

theorem readUInt32_eq_ok_iff {n : UInt32} :
    readUInt32 j = .ok n ↔ j = .num (.ofInt n.toNat) := by
  rw [readUInt32, map_eq_ok_iff]
  constructor
  · rintro ⟨m, hm, rfl⟩
    obtain ⟨rfl, hlt⟩ := (readNat_eq_ok_iff (by decide)).mp hm
    rw [UInt32.toNat_ofNat_of_lt' hlt]
  · rintro rfl
    exact ⟨n.toNat, (readNat_eq_ok_iff (by decide)).mpr ⟨rfl, n.toNat_lt⟩, UInt32.ofNat_toNat⟩

/-! ## Kinds of nodes -/

theorem kindOfName_eq_ok_iff {name : String} {k : NodeKind} :
    kindOfName name = .ok k ↔ name = k.name := by
  unfold kindOfName
  constructor
  · intro h
    split at h
    next k' hk' =>
      cases h
      exact (NodeKind.name_of_ofName? hk').symm
    next => cases h
  · rintro rfl
    rw [NodeKind.ofName?_name]

theorem readKind_eq_ok_iff {k : NodeKind} :
    readKind j = .ok k ↔ j = .str k.name ∨ j = .obj [(.plain k.name, .null)] := by
  constructor
  · intro h
    unfold readKind at h
    split at h
    next name => exact .inl (by rw [kindOfName_eq_ok_iff.mp h])
    next name value members =>
      obtain ⟨s, hs, hrest⟩ := bind_eq_ok_iff.mp h
      obtain ⟨k', hk', hrest⟩ := bind_eq_ok_iff.mp hrest
      obtain ⟨⟨⟩, hunit, hend⟩ := bind_eq_ok_iff.mp hrest
      obtain rfl := readName_eq_ok_iff.mp hs
      cases members with
      | cons next members => cases hend
      | nil =>
          obtain rfl : k' = k := Except.ok.inj hend
          rw [kindOfName_eq_ok_iff.mp hk', readUnit_eq_ok_iff.mp hunit]
          exact .inr rfl
    next => cases h
    next => cases h
  · have hname : kindOfName k.name = .ok k := kindOfName_eq_ok_iff.mpr rfl
    rintro (rfl | rfl)
    · exact hname
    · show (kindOfName k.name >>= fun k => readUnit .null >>= fun _ => .ok k) = _
      rw [hname]
      rfl

end FlowEvents.Wire
