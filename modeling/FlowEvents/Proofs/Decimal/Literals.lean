import FlowEvents.Decimal.Literal

/-! # A literal is read as it was written

The reader takes the longest number at the front of a text.  So what is read back from the text of a
literal and something behind it is the literal, as long as the rest could not go on with the number.
-/

namespace FlowEvents.Decimal

/-- A text does not start with a character of the given kind. -/
def Stops (p : Char → Bool) (cs : List Char) : Prop :=
  ∀ c ∈ cs.head?, p c = false

theorem stops_cons {p : Char → Bool} {c : Char} (cs : List Char) (h : p c = false) :
    Stops p (c :: cs) := by
  intro d hd
  obtain rfl : c = d := Option.some.inj hd
  exact h

theorem Stops.takeWhile_append {p : Char → Bool} {cs rest : List Char} (h : Stops p rest)
    (hcs : ∀ c ∈ cs, p c = true) : (cs ++ rest).takeWhile p = cs := by
  rw [List.takeWhile_append_of_pos hcs]
  cases rest with
  | nil => simp
  | cons c rest =>
      have hc := h c rfl
      simp [hc]

theorem Stops.dropWhile_append {p : Char → Bool} {cs rest : List Char} (h : Stops p rest)
    (hcs : ∀ c ∈ cs, p c = true) : (cs ++ rest).dropWhile p = rest := by
  rw [List.dropWhile_append_of_pos hcs]
  cases rest with
  | nil => rfl
  | cons c rest =>
      have hc := h c rfl
      simp [hc]

namespace Literal

/-- The characters that a number could go on with. -/
def isNumberPart (c : Char) : Bool :=
  c.isDigit || c == '.' || c == 'e' || c == 'E'

theorem stops_isDigit {cs : List Char} (h : Stops isNumberPart cs) : Stops Char.isDigit cs := by
  intro c hc
  have hpart := h c hc
  simp only [isNumberPart, Bool.or_eq_false_iff] at hpart
  exact hpart.1.1.1

theorem stops_point {cs : List Char} (h : Stops isNumberPart cs) : Stops (· == '.') cs := by
  intro c hc
  have hpart := h c hc
  simp only [isNumberPart, Bool.or_eq_false_iff] at hpart
  exact hpart.1.1.2

/-! ## The whole part -/

theorem isDigit_toDigits {n : Nat} : ∀ c ∈ Nat.toDigits 10 n, c.isDigit = true :=
  fun _ hc => Nat.isDigit_of_mem_toDigits (by decide) (by decide) hc

/-- The first digit is a zero only if it is the only one. -/
theorem head?_toDigits_ne_zero {n : Nat} (h : 0 < n) : (Nat.toDigits 10 n).head? ≠ some '0' := by
  induction n using Nat.strongRecOn with
  | ind n ih =>
      by_cases hlt : n < 10
      · rw [Nat.toDigits_of_lt_base hlt, List.head?_cons]
        simp only [ne_eq, Option.some.injEq, Nat.digitChar_eq_zero]
        omega
      · have ih := ih (n / 10) (by omega) (by omega)
        obtain ⟨c, ds, hcons⟩ :=
          List.exists_cons_of_ne_nil (Nat.toDigits_ne_nil (n := n / 10) (b := 10))
        rw [Nat.toDigits_of_base_le (by decide) (by omega)]
        rw [hcons] at ih ⊢
        exact ih

theorem readWhole?_toDigits (n : Nat) {rest : List Char} (h : Stops Char.isDigit rest) :
    readWhole? (Nat.toDigits 10 n ++ rest) = some (n, rest) := by
  have hzero : ¬ ((Nat.toDigits 10 n).head? = some '0' ∧ 1 < (Nat.toDigits 10 n).length) := by
    rintro ⟨hhead, hlen⟩
    rcases Nat.eq_zero_or_pos n with rfl | hpos
    · simp at hlen
    · exact head?_toDigits_ne_zero hpos hhead
  rw [readWhole?, h.takeWhile_append isDigit_toDigits, h.dropWhile_append isDigit_toDigits,
    Nat.ofDigitChars_ten_toDigits]
  rw [if_neg (not_or.mpr ⟨Nat.toDigits_ne_nil, hzero⟩)]

/-! ## The digits after the point -/

/-- The point and the digits after it, if there are any. -/
def fractionText (digits : List Char) : List Char :=
  if digits = [] then [] else '.' :: digits

theorem digitRun_append {ds rest : List Char} (h : Stops Char.isDigit rest)
    (hds : ∀ c ∈ ds, c.isDigit = true) : digitRun (ds ++ rest) = ⟨ds, hds⟩ :=
  Subtype.ext (h.takeWhile_append hds)

theorem readFraction?_text {ds rest : List Char} (hds : ∀ c ∈ ds, c.isDigit = true)
    (h : Stops Char.isDigit rest) (hpoint : Stops (· == '.') rest) :
    readFraction? (fractionText ds ++ rest) = some (⟨ds, hds⟩, rest) := by
  by_cases hnil : ds = []
  · subst hnil
    rw [fractionText, if_pos rfl, List.nil_append]
    cases rest with
    | nil => rfl
    | cons c rest =>
        have hc : c ≠ '.' := by
          rintro rfl
          cases hpoint '.' rfl
        unfold readFraction?
        split
        next heq => exact absurd (List.cons.inj heq).1 hc
        next => rfl
  · rw [fractionText, if_neg hnil, List.cons_append, readFraction?, digitRun_append h hds]
    dsimp only
    rw [if_neg hnil, h.dropWhile_append hds]

/-! ## The exponent -/

theorem readPower?_text (e : Int) {rest : List Char} (h : Stops Char.isDigit rest) :
    readPower? ((if e < 0 then '-' else '+') :: (Nat.toDigits 10 e.natAbs ++ rest)) =
      some (e, rest) := by
  have htake := h.takeWhile_append (isDigit_toDigits (n := e.natAbs))
  have hdrop := h.dropWhile_append (isDigit_toDigits (n := e.natAbs))
  by_cases he : e < 0
  · rw [if_pos he, readPower?]
    dsimp only
    rw [htake, hdrop, if_neg Nat.toDigits_ne_nil, Nat.ofDigitChars_ten_toDigits, if_pos rfl]
    congr 2
    omega
  · rw [if_neg he, readPower?]
    dsimp only
    rw [htake, hdrop, if_neg Nat.toDigits_ne_nil, Nat.ofDigitChars_ten_toDigits, if_neg (by simp)]
    congr 2
    omega

theorem readExponent?_text (exponent : Option Int) {rest : List Char}
    (h : Stops isNumberPart rest) :
    readExponent? (exponentText exponent ++ rest) = some (exponent, rest) := by
  have hdigit := stops_isDigit h
  cases exponent with
  | none =>
      rw [exponentText, List.nil_append]
      cases rest with
      | nil => rfl
      | cons c rest =>
          have hc := h c rfl
          simp only [isNumberPart, Bool.or_eq_false_iff, beq_eq_false_iff_ne] at hc
          unfold readExponent?
          split
          next heq => exact absurd (List.cons.inj heq).1 hc.1.2
          next heq => exact absurd (List.cons.inj heq).1 hc.2
          next => rfl
  | some e =>
      rw [exponentText, List.cons_append, List.cons_append, readExponent?, readPower?_text e hdigit]
      rfl

/-! ## The literal -/

theorem stops_exponentText (exponent : Option Int) {rest : List Char} {p : Char → Bool}
    (h : Stops p rest) (he : p 'e' = false) : Stops p (exponentText exponent ++ rest) := by
  cases exponent with
  | none => exact h
  | some e => exact stops_cons _ he

theorem stops_fractionText (ds : List Char) {rest : List Char} {p : Char → Bool}
    (h : Stops p rest) (hp : p '.' = false) : Stops p (fractionText ds ++ rest) := by
  by_cases hnil : ds = []
  · rw [fractionText, if_pos hnil]
    exact h
  · rw [fractionText, if_neg hnil]
    exact stops_cons _ hp

theorem readUnsigned?_text (l : Literal) {rest : List Char} (h : Stops isNumberPart rest) :
    readUnsigned? l.negative (Nat.toDigits 10 l.whole ++ (fractionText l.fraction ++
      (exponentText l.exponent ++ rest))) = some (l, rest) := by
  have hexp := stops_exponentText l.exponent (stops_isDigit h) (by decide)
  have hpoint := stops_exponentText l.exponent (stops_point h) (by decide)
  rw [readUnsigned?, readWhole?_toDigits l.whole (stops_fractionText l.fraction hexp (by decide))]
  simp only [Option.bind_eq_bind, Option.bind_some]
  rw [readFraction?_text l.isDigit_fraction hexp hpoint]
  simp only [Option.bind_some]
  rw [readExponent?_text l.exponent h]
  rfl

/-- **Literals.** What is written is read back, whatever follows that is no part of a number. -/
theorem read?_text (l : Literal) {rest : List Char} (h : Stops isNumberPart rest) :
    read? (l.text ++ rest) = some (l, rest) := by
  have hread := readUnsigned?_text l h
  have htext : l.text ++ rest = (if l.negative then ['-'] else []) ++
      (Nat.toDigits 10 l.whole ++ (fractionText l.fraction ++ (exponentText l.exponent ++ rest))) :=
    by simp [text, fractionText]
  rw [htext]
  cases hneg : l.negative with
  | true =>
      rw [hneg] at hread
      exact hread
  | false =>
      rw [hneg] at hread
      obtain ⟨c, ds, hcons⟩ := List.exists_cons_of_ne_nil (Nat.toDigits_ne_nil (n := l.whole)
        (b := 10))
      have hc : c ≠ '-' := by
        rintro rfl
        have hdigit := isDigit_toDigits (n := l.whole) '-' (by rw [hcons]; exact List.mem_cons_self)
        cases hdigit
      rw [if_neg (by simp), List.nil_append]
      rw [hcons] at hread ⊢
      unfold read?
      split
      next heq => exact absurd (List.cons.inj heq).1 hc
      next => exact hread

end Literal

end FlowEvents.Decimal
