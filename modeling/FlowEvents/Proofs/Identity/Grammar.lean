import FlowEvents.Identity.HostId
import Mathlib.Data.List.Induction

/-! # The grammar of hosted ids

Which texts stand for an id, and why each of the others is refused, said without the reader: a text
is built from a host, a dash and a numeral.  The reader is then shown to accept just the texts that
`Denotes` tells of, and to refuse each of the others with the one fault that `Refused` tells of.
-/

namespace FlowEvents

/-! ## Numerals -/

namespace Decimal.Numeral

/-- The number that one or more ASCII digits write, the first of which counts most. -/
inductive Digits : List Char → Nat → Prop
  | one {c : Char} (hc : c.isDigit = true) : Digits [c] (c.toNat - '0'.toNat)
  | more {cs : List Char} {n : Nat} {c : Char} (hcs : Digits cs n) (hc : c.isDigit = true) :
      Digits (cs ++ [c]) (10 * n + (c.toNat - '0'.toNat))

/-- The number that a numeral writes, which may have one plus sign in front. -/
inductive Writes : List Char → Nat → Prop
  | plain {cs : List Char} {n : Nat} (h : Digits cs n) : Writes cs n
  | plus {cs : List Char} {n : Nat} (h : Digits cs n) : Writes ('+' :: cs) n

variable {cs : List Char} {n : Nat}

theorem Digits.isDigit (h : Digits cs n) : ∀ c ∈ cs, c.isDigit = true := by
  induction h with
  | one hc => simpa using hc
  | more hcs hc ih =>
      intro d hd
      rcases List.mem_append.mp hd with hd | hd
      · exact ih d hd
      · rw [List.mem_singleton.mp hd]
        exact hc

theorem Digits.ofDigitChars (h : Digits cs n) : Nat.ofDigitChars 10 cs 0 = n := by
  induction h with
  | one hc => simp [Nat.ofDigitChars]
  | more hcs hc ih => rw [Nat.ofDigitChars_append, ih, Nat.ofDigitChars_cons, Nat.ofDigitChars_nil]

theorem digits_ofDigitChars (hne : cs ≠ []) (hdigits : ∀ c ∈ cs, c.isDigit = true) :
    Digits cs (Nat.ofDigitChars 10 cs 0) := by
  induction cs using List.reverseRecOn with
  | nil => exact absurd rfl hne
  | append_singleton cs c ih =>
      have hc : c.isDigit = true := hdigits c (by simp)
      by_cases hnil : cs = []
      · subst hnil
        simpa [Nat.ofDigitChars] using Digits.one hc
      · have hcs := ih hnil fun d hd => hdigits d (List.mem_append_left _ hd)
        rw [Nat.ofDigitChars_append, Nat.ofDigitChars_cons, Nat.ofDigitChars_nil]
        exact hcs.more hc

theorem unsigned?_eq_some_iff : unsigned? cs = some n ↔ Digits cs n := by
  unfold unsigned?
  split
  next h =>
    obtain ⟨hne, hall⟩ := h
    have hdigits := digits_ofDigitChars hne (List.all_eq_true.mp hall)
    constructor
    · intro heq
      rwa [← Option.some.inj heq]
    · intro hn
      rw [hn.ofDigitChars]
  next h =>
    constructor
    · intro heq
      cases heq
    · intro hn
      refine absurd ⟨?_, List.all_eq_true.mpr hn.isDigit⟩ h
      cases hn <;> simp

theorem read?_eq_some_iff : read? cs = some n ↔ Writes cs n := by
  unfold read?
  split
  next cs =>
    rw [unsigned?_eq_some_iff]
    constructor
    · exact .plus
    · intro h
      cases h with
      | plus h => exact h
      -- a plus sign is no digit
      | plain h => exact absurd (h.isDigit '+' List.mem_cons_self) (by decide)
  next hplus =>
    rw [unsigned?_eq_some_iff]
    constructor
    · exact .plain
    · intro h
      cases h with
      | plain h => exact h
      | plus h => exact absurd rfl (hplus _)

/-- A text writes one number at most. -/
theorem Writes.unique {m : Nat} (hm : Writes cs m) (hn : Writes cs n) : m = n :=
  Option.some.inj ((read?_eq_some_iff.mpr hm).symm.trans (read?_eq_some_iff.mpr hn))

end Decimal.Numeral

/-! ## Hosted ids -/

namespace HostId

open Decimal (Numeral.Writes)

/-- What a text stands for: `na` for the default id, and any other text for a host and a number that
can be assigned.  The last dash parts them, so the host may hold dashes and the number may not. -/
inductive Denotes : String → HostId → Prop
  | unassigned : Denotes "na" ⟨"", 0⟩
  | assigned (host number : String) (n : Nat) (hhost : host ≠ "") (hdash : '-' ∉ number.toList)
      (hn : Numeral.Writes number.toList n) (hpos : 1 ≤ n) (hlt : n < 2 ^ 64) :
      Denotes (host ++ "-" ++ number) ⟨host, UInt64.ofNat n⟩

/-- Why a text stands for no id. -/
inductive Refused : String → IdFault → Prop
  | malformed (s : String) (hs : s ≠ "na") (hdash : '-' ∉ s.toList) : Refused s (.malformed s)
  | emptyHost (number : String) (hdash : '-' ∉ number.toList) :
      Refused ("-" ++ number) (.emptyHost ("-" ++ number))
  | badNumber (host number : String) (hhost : host ≠ "") (hdash : '-' ∉ number.toList)
      (hn : ∀ n, Numeral.Writes number.toList n → 2 ^ 64 ≤ n) :
      Refused (host ++ "-" ++ number) (.badNumber (host ++ "-" ++ number))
  | unassigned (host number : String) (hhost : host ≠ "") (hdash : '-' ∉ number.toList)
      (hn : Numeral.Writes number.toList 0) :
      Refused (host ++ "-" ++ number) (.unassigned host)

theorem readNumber?_eq_some_iff {cs : List Char} {n : Nat} :
    readNumber? cs = some n ↔ Numeral.Writes cs n ∧ n < 2 ^ 64 := by
  rw [readNumber?, Option.filter_eq_some_iff, Decimal.Numeral.read?_eq_some_iff]
  simp

theorem readNumber?_eq_none_iff {cs : List Char} :
    readNumber? cs = none ↔ ∀ n, Numeral.Writes cs n → 2 ^ 64 ≤ n := by
  rw [Option.eq_none_iff_forall_ne_some]
  constructor
  · intro h n hn
    by_contra hlt
    exact h n (readNumber?_eq_some_iff.mpr ⟨hn, Nat.lt_of_not_le hlt⟩)
  · intro h n hn
    obtain ⟨hwrites, hlt⟩ := readNumber?_eq_some_iff.mp hn
    exact Nat.not_le.mpr hlt (h n hwrites)

/-! ## What the reader makes of each form -/

theorem ne_unassignedText (host number : String) : host ++ "-" ++ number ≠ unassignedText := by
  intro heq
  have hdash : '-' ∈ (host ++ "-" ++ number).toList := by simp
  rw [heq] at hdash
  exact absurd hdash (by decide)

theorem splitLast_text (host : String) {number : String} (hdash : '-' ∉ number.toList) :
    Text.splitLast '-' (host ++ "-" ++ number).toList = some (host.toList, number.toList) := by
  have htext : (host ++ "-" ++ number).toList = host.toList ++ '-' :: number.toList := by simp
  rw [htext]
  exact Text.splitLast_append_cons hdash

theorem parse_of_no_dash {s : String} (hs : s ≠ unassignedText) (hdash : '-' ∉ s.toList) :
    parse s = .error (.malformed s) := by
  rw [parse, if_neg hs, Text.splitLast_eq_none_iff.mpr hdash]

theorem parse_of_empty_host {number : String} (hdash : '-' ∉ number.toList) :
    parse ("-" ++ number) = .error (.emptyHost ("-" ++ number)) := by
  have hne := ne_unassignedText "" number
  have hsplit := splitLast_text "" hdash
  rw [String.empty_append] at hne hsplit
  rw [parse, if_neg hne, hsplit]
  rfl

/-- Behind a host that is not empty, the number decides. -/
theorem parse_of_host {host number : String} (hhost : host ≠ "") (hdash : '-' ∉ number.toList) :
    parse (host ++ "-" ++ number) =
      match readNumber? number.toList with
      | none => .error (.badNumber (host ++ "-" ++ number))
      | some 0 => .error (.unassigned host)
      | some n => .ok ⟨host, UInt64.ofNat n⟩ := by
  have hnonempty : host.toList.isEmpty = false := by
    rw [List.isEmpty_eq_false_iff]
    exact fun hnil => hhost (String.toList_eq_nil_iff.mp hnil)
  rw [parse, if_neg (ne_unassignedText host number), splitLast_text host hdash]
  simp only [hnonempty, String.ofList_toList]
  rfl

theorem parse_of_denotes {s : String} {h : HostId} (hs : Denotes s h) : parse s = .ok h := by
  cases hs with
  | unassigned => rfl
  | assigned host number n hhost hdash hn hpos hlt =>
      rw [parse_of_host hhost hdash, readNumber?_eq_some_iff.mpr ⟨hn, hlt⟩]
      cases n with
      | zero => cases hpos
      | succ n => rfl

theorem parse_of_refused {s : String} {fault : IdFault} (hs : Refused s fault) :
    parse s = .error fault := by
  cases hs with
  | malformed _ hs hdash => exact parse_of_no_dash hs hdash
  | emptyHost number hdash => exact parse_of_empty_host hdash
  | badNumber host number hhost hdash hn =>
      rw [parse_of_host hhost hdash, readNumber?_eq_none_iff.mpr hn]
  | unassigned host number hhost hdash hn =>
      rw [parse_of_host hhost hdash, readNumber?_eq_some_iff.mpr ⟨hn, by decide⟩]
      rfl

/-! ## No text is left over -/

theorem eq_text_of_dash {s : String} (hdash : '-' ∈ s.toList) :
    ∃ host number : String, s = host ++ "-" ++ number ∧ '-' ∉ number.toList := by
  cases hsplit : Text.splitLast '-' s.toList with
  | none => exact absurd hdash (Text.splitLast_eq_none_iff.mp hsplit)
  | some parts =>
      obtain ⟨heq, hnumber⟩ := Text.eq_append_of_splitLast hsplit
      refine ⟨String.ofList parts.1, String.ofList parts.2, ?_, ?_⟩
      · apply String.toList_injective
        simp [heq]
      · rwa [String.toList_ofList]

/-- Every text stands for an id or is refused. -/
theorem denotes_or_refused (s : String) : (∃ h, Denotes s h) ∨ ∃ fault, Refused s fault := by
  by_cases hna : s = "na"
  · subst hna
    exact .inl ⟨_, .unassigned⟩
  by_cases hdash : '-' ∈ s.toList
  · obtain ⟨host, number, rfl, hnumber⟩ := eq_text_of_dash hdash
    by_cases hhost : host = ""
    · subst hhost
      rw [String.empty_append]
      exact .inr ⟨_, .emptyHost number hnumber⟩
    cases hn : readNumber? number.toList with
    | none => exact .inr ⟨_, .badNumber host number hhost hnumber (readNumber?_eq_none_iff.mp hn)⟩
    | some n =>
        obtain ⟨hwrites, hlt⟩ := readNumber?_eq_some_iff.mp hn
        cases n with
        | zero => exact .inr ⟨_, .unassigned host number hhost hnumber hwrites⟩
        | succ n =>
            exact .inl ⟨_, .assigned host number (n + 1) hhost hnumber hwrites (by omega) hlt⟩
  · exact .inr ⟨_, .malformed s hna hdash⟩

theorem parse_eq_ok_iff {s : String} {h : HostId} : parse s = .ok h ↔ Denotes s h := by
  constructor
  · intro hparse
    rcases denotes_or_refused s with ⟨h', hs⟩ | ⟨fault, hs⟩
    · rw [parse_of_denotes hs] at hparse
      rwa [← Except.ok.inj hparse]
    · rw [parse_of_refused hs] at hparse
      cases hparse
  · exact parse_of_denotes

theorem parse_eq_error_iff {s : String} {fault : IdFault} :
    parse s = .error fault ↔ Refused s fault := by
  constructor
  · intro hparse
    rcases denotes_or_refused s with ⟨h, hs⟩ | ⟨fault', hs⟩
    · rw [parse_of_denotes hs] at hparse
      cases hparse
    · rw [parse_of_refused hs] at hparse
      rwa [← Except.error.inj hparse]
  · exact parse_of_refused

/-- **The grammar of hosted ids.** The reader accepts exactly the texts that stand for an id, and
gives that id.  It refuses every other text, with exactly one fault: the one that the grammar
tells. -/
theorem parse_exact (s : String) :
    (∀ h, parse s = .ok h ↔ Denotes s h) ∧
      (∀ fault, parse s = .error fault ↔ Refused s fault) ∧
      ((¬ ∃ h, Denotes s h) → ∃! fault, Refused s fault) := by
  refine ⟨fun h => parse_eq_ok_iff, fun fault => parse_eq_error_iff, ?_⟩
  intro hnone
  obtain ⟨fault, hs⟩ := (denotes_or_refused s).resolve_left hnone
  refine ⟨fault, hs, ?_⟩
  intro fault' hs'
  exact Except.error.inj ((parse_of_refused hs').symm.trans (parse_of_refused hs))

/-- The last dash parts the number from a host with a dash of its own; zeros and a plus sign in
front of the number do not count. -/
example : parse "eu-west-+007" = .ok ⟨"eu-west", 7⟩ := by
  cbv

/-- The first number that is too large. -/
example : parse "h-18446744073709551616" = .error (.badNumber "h-18446744073709551616") := by
  cbv

end HostId

end FlowEvents
