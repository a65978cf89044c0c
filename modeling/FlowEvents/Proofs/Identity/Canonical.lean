import FlowEvents.Proofs.Decimal.Literals
import FlowEvents.Proofs.Identity.Grammar

/-! # The canonical texts of hosted ids

Writing forgets the host of an unassigned id, and reading forgets how a number was spelled.  So not
every id is read back from its text, and not every text is that of the id that it stands for.
`parse_text` tells for each id what its text is read as, and `Canonical` which texts are written.
-/

namespace FlowEvents

/-! ## Numerals -/

namespace Decimal.Numeral

variable {cs : List Char} {n : Nat}

theorem writes_toDigits (n : Nat) : Writes (Nat.toDigits 10 n) n :=
  read?_eq_some_iff.mp (read?_toDigits n)

theorem digitChar_of_isDigit {c : Char} (h : c.isDigit = true) :
    c.toNat - '0'.toNat < 10 ∧ Nat.digitChar (c.toNat - '0'.toNat) = c := by
  have hzero : '0'.toNat = 48 := rfl
  obtain ⟨hlow, hhigh⟩ : 48 ≤ c.toNat ∧ c.toNat ≤ 57 := by
    simpa [Char.isDigit, UInt32.le_iff_toNat_le] using h
  have hlt : c.toNat - '0'.toNat < 10 := by omega
  refine ⟨hlt, Char.toNat_inj.mp ?_⟩
  rw [Nat.toNat_digitChar_of_lt_ten hlt]
  omega

/-- Without a zero in front, digits are those of their number, and the number is not zero. -/
theorem Digits.eq_toDigits (h : Digits cs n) (hzero : cs.head? ≠ some '0') :
    cs = Nat.toDigits 10 n ∧ 0 < n := by
  induction h with
  | @one c hc =>
      obtain ⟨hlt, hchar⟩ := digitChar_of_isDigit hc
      rw [Nat.toDigits_of_lt_base hlt, hchar]
      refine ⟨rfl, Nat.pos_of_ne_zero fun hnone => hzero ?_⟩
      rw [hnone] at hchar
      rw [List.head?_cons, ← hchar]
      rfl
  | @more cs n c hcs hc ih =>
      -- what is in front of the last digit has no zero in front either
      have hfront : cs.head? ≠ some '0' := by
        cases cs with
        | nil => simp
        | cons d ds => exact hzero
      obtain ⟨heq, hpos⟩ := ih hfront
      obtain ⟨hlt, hchar⟩ := digitChar_of_isDigit hc
      rw [← Nat.toDigits_append_toDigits (by decide) hpos hlt, Nat.toDigits_of_lt_base hlt, hchar,
        ← heq]
      exact ⟨rfl, by omega⟩

theorem Writes.eq_toDigits (h : Writes cs n) (hplus : cs.head? ≠ some '+')
    (hzero : cs.head? ≠ some '0') : cs = Nat.toDigits 10 n := by
  cases h with
  | plain h => exact (h.eq_toDigits hzero).1
  | plus h => exact absurd rfl hplus

theorem head?_toDigits_ne_plus (n : Nat) : (Nat.toDigits 10 n).head? ≠ some '+' := by
  intro hplus
  have hdigit : ('+' : Char).isDigit = true :=
    Literal.isDigit_toDigits _ (List.mem_of_head? hplus)
  exact absurd hdigit (by decide)

theorem dash_not_mem_toDigits (n : Nat) : '-' ∉ Nat.toDigits 10 n := by
  intro hdash
  exact absurd (Literal.isDigit_toDigits _ hdash) (by decide)

end Decimal.Numeral

namespace HostId

open Decimal (Numeral.Writes)

/-! ## Reading what was written -/

theorem dash_not_mem_repr (n : Nat) : '-' ∉ (Nat.repr n).toList := by
  rw [Nat.toList_repr]
  exact Decimal.Numeral.dash_not_mem_toDigits n

theorem text_of_number_ne {h : HostId} (hn : h.number ≠ 0) :
    h.text = h.host ++ "-" ++ Nat.repr h.number.toNat :=
  text_of_assigned (by simpa [isAssigned] using hn)

theorem text_of_number_eq {h : HostId} (hn : h.number = 0) : h.text = "na" :=
  text_of_unassigned (by simp [isAssigned, hn])

theorem denotes_text {h : HostId} (hhost : h.host ≠ "") (hn : h.number ≠ 0) :
    Denotes h.text h := by
  have hpos : 1 ≤ h.number.toNat :=
    Nat.pos_of_ne_zero fun hzero => hn (UInt64.toNat_inj.mp hzero)
  have hwrites : Numeral.Writes (Nat.repr h.number.toNat).toList h.number.toNat := by
    rw [Nat.toList_repr]
    exact Decimal.Numeral.writes_toDigits _
  have hdenotes := Denotes.assigned h.host _ _ hhost (dash_not_mem_repr _) hwrites hpos
    h.number.toNat_lt
  rwa [UInt64.ofNat_toNat, ← text_of_number_ne hn] at hdenotes

/-- What the text of an id is read as. -/
theorem parse_text (h : HostId) :
    parse h.text =
      if h.number = 0 then .ok ⟨"", 0⟩
      else if h.host = "" then .error (.emptyHost h.text)
      else .ok h := by
  split
  next hn =>
    rw [text_of_number_eq hn]
    rfl
  next hn =>
    split
    next hhost =>
      rw [text_of_number_ne hn, hhost, String.empty_append]
      exact parse_of_empty_host (dash_not_mem_repr _)
    next hhost => exact parse_of_denotes (denotes_text hhost hn)

theorem ofNat_ne_zero {n : Nat} (hpos : 1 ≤ n) (hlt : n < 2 ^ 64) : UInt64.ofNat n ≠ 0 := by
  intro hzero
  have hnumber := congrArg UInt64.toNat hzero
  rw [UInt64.toNat_ofNat_of_lt' hlt] at hnumber
  have hnone : (0 : UInt64).toNat = 0 := rfl
  omega

/-- An id that has been read has a host and a number, or neither. -/
theorem Denotes.host_iff {s : String} {h : HostId} (hs : Denotes s h) :
    h.host ≠ "" ∧ h.number ≠ 0 ∨ h = ⟨"", 0⟩ := by
  cases hs with
  | unassigned => exact .inr rfl
  | assigned host number n hhost hdash hn hpos hlt =>
      exact .inl ⟨hhost, ofNat_ne_zero hpos hlt⟩

/-! ## Canonical texts -/

/-- The texts that do not say more than they have to: behind the last dash stands neither a plus
sign nor a zero before the number. -/
inductive Canonical : String → Prop
  | unassigned : Canonical "na"
  | assigned (host number : String) (hdash : '-' ∉ number.toList)
      (hplus : number.toList.head? ≠ some '+') (hzero : number.toList.head? ≠ some '0') :
      Canonical (host ++ "-" ++ number)

theorem canonical_text (h : HostId) : Canonical h.text := by
  by_cases hn : h.number = 0
  · rw [text_of_number_eq hn]
    exact .unassigned
  · have hpos : 0 < h.number.toNat :=
      Nat.pos_of_ne_zero fun hzero => hn (UInt64.toNat_inj.mp hzero)
    rw [text_of_number_ne hn]
    refine .assigned _ _ (dash_not_mem_repr _) ?_ ?_
    · rw [Nat.toList_repr]
      exact Decimal.Numeral.head?_toDigits_ne_plus _
    · rw [Nat.toList_repr]
      exact Decimal.Literal.head?_toDigits_ne_zero hpos

/-- A text is the one that is written for its id just if it is canonical. -/
theorem Denotes.text_eq_iff {s : String} {h : HostId} (hs : Denotes s h) :
    h.text = s ↔ Canonical s := by
  constructor
  · rintro rfl
    exact canonical_text h
  · intro hcanonical
    cases hs with
    | unassigned => rfl
    | assigned host number n hhost hdash hn hpos hlt =>
        have hne : UInt64.ofNat n ≠ 0 := ofNat_ne_zero hpos hlt
        -- the number is spelled as it is written
        have hspelled : number = Nat.repr n := by
          generalize htext : host ++ "-" ++ number = text at hcanonical
          cases hcanonical with
          | unassigned => exact absurd htext (ne_unassignedText host number)
          | assigned host' number' hdash' hplus hzero =>
              obtain ⟨-, rfl⟩ := Text.glue_inj rfl hdash hdash' htext
              apply String.toList_injective
              rw [Nat.toList_repr]
              exact hn.eq_toDigits hplus hzero
        rw [text_of_number_ne hne, UInt64.toNat_ofNat_of_lt' hlt, hspelled]

/-- **Hosted ids are read back.** An id is read back from its text if it has a host and a number, or
neither; a host without a number is forgotten, and a number without a host is refused.  The text of
an id that has been read is read as that id again, and it is the text that was read just if that one
is canonical. -/
theorem text_round_trip (h : HostId) :
    (parse h.text = .ok h ↔ h.host ≠ "" ∧ h.number ≠ 0 ∨ h = ⟨"", 0⟩) ∧
      (h.host ≠ "" → h.number = 0 → parse h.text = .ok ⟨"", 0⟩) ∧
      (h.host = "" → h.number ≠ 0 → parse h.text = .error (.emptyHost h.text)) ∧
      ∀ s, parse s = .ok h → parse h.text = .ok h ∧ (h.text = s ↔ Canonical s) := by
  have hback : parse h.text = .ok h ↔ h.host ≠ "" ∧ h.number ≠ 0 ∨ h = ⟨"", 0⟩ := by
    constructor
    · intro hparse
      exact (parse_eq_ok_iff.mp hparse).host_iff
    · rintro (⟨hhost, hn⟩ | rfl)
      · exact parse_of_denotes (denotes_text hhost hn)
      · rfl
  refine ⟨hback, ?_, ?_, ?_⟩
  · intro _ hn
    rw [parse_text, if_pos hn]
  · intro hhost hn
    rw [parse_text, if_neg hn, if_pos hhost]
  · intro s hparse
    have hs := parse_eq_ok_iff.mp hparse
    exact ⟨hback.mpr hs.host_iff, hs.text_eq_iff⟩

/-- Zeros in front of the number are lost. -/
example : (parse "eu-west-007").map text = .ok "eu-west-7" := by
  cbv

end HostId

end FlowEvents
