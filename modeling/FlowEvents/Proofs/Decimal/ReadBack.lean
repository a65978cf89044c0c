import FlowEvents.Decimal.Shortest

/-! # A number is read as it was written

Whatever the search for a short literal accepts has been read back already.  What is left is the
exact expansion behind the search: it is short enough to be weighed in full, and rounding does
nothing to a number that is there exactly.
-/

namespace FlowEvents.Decimal.Binary64

/-! ## Magnitudes -/

theorem ofMagnitude_magnitude (x : Binary64) : ofMagnitude x.isNegative x.magnitude = x := by
  have hbits : (if x.isNegative then 2 ^ 63 + x.magnitude else x.magnitude) = x.bits.toNat := by
    have hlt := x.bits.toNat_lt
    unfold isNegative magnitude
    split
    next h =>
      have h := of_decide_eq_true h
      omega
    next h =>
      have h := of_decide_eq_false (Bool.not_eq_true _ ▸ h)
      omega
  rw [ofMagnitude, hbits, UInt64.ofNat_toNat]

theorem significand_lt (mag : Nat) : significand mag < 2 ^ 53 := by
  unfold significand
  dsimp only
  split <;> omega

theorem spacing_le {mag : Nat} (h : mag < infinity) : spacing mag ≤ 2045 := by
  unfold spacing
  unfold infinity at h
  omega

theorem spacing_add_significand (mag : Nat) : spacing mag * 2 ^ 52 + significand mag = mag := by
  unfold spacing significand
  dsimp only
  split <;> omega

/-- The number needs its spacing: only the numbers that are spaced closest have fewer bits. -/
theorem log2_units (mag : Nat) : (units mag).log2 - 52 = spacing mag := by
  by_cases h : mag / 2 ^ 52 = 0
  · have hs : spacing mag = 0 := by
      unfold spacing
      omega
    have hlt : (units mag).log2 < 53 := by
      by_cases hz : units mag = 0
      · rw [hz, Nat.log2_zero]
        omega
      · rw [Nat.log2_lt hz, units, hs, Nat.pow_zero, Nat.mul_one]
        exact significand_lt mag
    omega
  · have hge : 2 ^ 52 ≤ significand mag := by
      unfold significand
      rw [if_neg h]
      omega
    -- with the hidden bit the significand has exactly 53 bits
    have hlog : (units mag).log2 = 52 + spacing mag := by
      have hpos : units mag ≠ 0 :=
        Nat.mul_ne_zero (by omega) (Nat.ne_of_gt (Nat.two_pow_pos _))
      rw [Nat.log2_eq_iff hpos, Nat.pow_add, Nat.add_right_comm, Nat.pow_add]
      exact ⟨Nat.mul_le_mul_right _ hge,
        Nat.mul_lt_mul_of_pos_right (significand_lt mag) (Nat.two_pow_pos _)⟩
    omega

/-! ## Exact numbers -/

theorem roundHalfEven_mul (q : Nat) {den : Nat} (h : 0 < den) :
    roundHalfEven (q * den) den = q := by
  unfold roundHalfEven
  dsimp only
  rw [Nat.mul_mod_left, Nat.mul_div_cancel q h, if_pos (by omega)]

/-- Rounding leaves a number alone that is a floating-point number already. -/
theorem nearest_of_exact {num den mag : Nat} (hden : 0 < den)
    (h : num * 2 ^ 1074 = units mag * den) : nearest num den = mag := by
  have hspacing : 0 < den * 2 ^ spacing mag := Nat.mul_pos hden (Nat.two_pow_pos _)
  have hscaled : units mag * den = significand mag * (den * 2 ^ spacing mag) := by
    rw [units, Nat.mul_assoc, Nat.mul_comm (2 ^ spacing mag)]
  unfold nearest
  dsimp only
  rw [h, Nat.mul_div_cancel _ hden, log2_units, hscaled, roundHalfEven_mul _ hspacing,
    spacing_add_significand]

theorem ofMagnitude?_nearest {x : Binary64} {num den : Nat} (h : x.magnitude < infinity)
    (hden : 0 < den) (hexact : num * 2 ^ 1074 = units x.magnitude * den) :
    ofMagnitude? x.isNegative (nearest num den) = some x := by
  rw [nearest_of_exact hden hexact, ofMagnitude?, if_pos h, ofMagnitude_magnitude]

/-! ## The exact expansion -/

theorem expansion_whole_lt {x : Binary64} (h : x.magnitude < infinity) :
    (Shortest.expansion x).whole < 10 ^ weighedDigits := by
  have hsig := significand_lt x.magnitude
  have hspacing := spacing_le h
  show significand x.magnitude * 2 ^ (spacing x.magnitude - 1074) *
    5 ^ (1074 - spacing x.magnitude) < 10 ^ weighedDigits
  rcases Nat.le_total (spacing x.magnitude) 1074 with hs | hs
  · rw [Nat.sub_eq_zero_of_le hs, Nat.pow_zero, Nat.mul_one]
    calc significand x.magnitude * 5 ^ (1074 - spacing x.magnitude)
        ≤ 2 ^ 53 * 5 ^ 1074 :=
          Nat.mul_le_mul (Nat.le_of_lt hsig) (Nat.pow_le_pow_right (by decide) (Nat.sub_le _ _))
      _ < 10 ^ weighedDigits := by decide +kernel
  · rw [Nat.sub_eq_zero_of_le hs, Nat.pow_zero, Nat.mul_one]
    calc significand x.magnitude * 2 ^ (spacing x.magnitude - 1074)
        ≤ 2 ^ 53 * 2 ^ 971 :=
          Nat.mul_le_mul (Nat.le_of_lt hsig) (Nat.pow_le_pow_right (by decide) (by omega))
      _ < 10 ^ weighedDigits := by decide +kernel

theorem weighed_expansion {x : Binary64} (h : x.magnitude < infinity) :
    (Shortest.expansion x).weighed =
      ⟨(Shortest.expansion x).whole, -((1074 - spacing x.magnitude : Nat) : Int)⟩ := by
  rw [Literal.weighed_of_lt (l := Shortest.expansion x) (expansion_whole_lt h)]
  show Scaled.mk _ (_ - ((0 : Nat) : Int)) = _
  rw [Int.natCast_zero, Int.sub_zero]
  rfl

theorem significand_pos {mag : Nat} (h : mag ≠ 0) : 0 < significand mag := by
  unfold significand
  dsimp only
  split <;> omega

theorem log2_shifted_lt {m k n : Nat} (hm : m < 2 ^ 53) (hk : k ≤ n) (hpos : m * 2 ^ k ≠ 0) :
    (m * 2 ^ k).log2 < 53 + n := by
  rw [Nat.log2_lt hpos, Nat.pow_add]
  calc m * 2 ^ k
      < 2 ^ 53 * 2 ^ k := Nat.mul_lt_mul_of_pos_right hm (Nat.two_pow_pos k)
    _ ≤ 2 ^ 53 * 2 ^ n := Nat.mul_le_mul_left _ (Nat.pow_le_pow_right (by decide) hk)

/-- The expansion of a wide number is an integer. -/
theorem expansion_wide {x : Binary64} (h : x.magnitude < infinity) (hz : x.magnitude ≠ 0)
    (hs : 1074 ≤ spacing x.magnitude) : (Shortest.expansion x).toBinary64? = some x := by
  have hwhole : (Shortest.expansion x).whole =
      significand x.magnitude * 2 ^ (spacing x.magnitude - 1074) := by
    show _ * 5 ^ (1074 - spacing x.magnitude) = _
    rw [Nat.sub_eq_zero_of_le hs, Nat.pow_zero, Nat.mul_one]
  have hpos : significand x.magnitude * 2 ^ (spacing x.magnitude - 1074) ≠ 0 :=
    Nat.mul_ne_zero (Nat.ne_of_gt (significand_pos hz)) (Nat.ne_of_gt (Nat.two_pow_pos _))
  have hlog := log2_shifted_lt (significand_lt x.magnitude)
    (show spacing x.magnitude - 1074 ≤ 971 by
      have := spacing_le h
      omega) hpos
  have hexact : significand x.magnitude * 2 ^ (spacing x.magnitude - 1074) * 10 ^ 0 * 2 ^ 1074 =
      units x.magnitude * 1 := by
    rw [Nat.pow_zero, Nat.mul_one, Nat.mul_one, Nat.mul_assoc, Nat.pow_sub_mul_pow 2 hs, units]
  rw [Literal.toBinary64?, weighed_expansion h, hwhole, Nat.sub_eq_zero_of_le hs]
  show ofDecimal x.isNegative _ (.ofNat 0) = some x
  unfold ofDecimal
  rw [if_neg hpos]
  dsimp only
  rw [if_neg (by omega)]
  exact ofMagnitude?_nearest h Nat.one_pos hexact

/-- The expansion of a narrow number has places behind the point. -/
theorem expansion_narrow {x : Binary64} (h : x.magnitude < infinity) (hz : x.magnitude ≠ 0)
    (hs : spacing x.magnitude < 1074) : (Shortest.expansion x).toBinary64? = some x := by
  obtain ⟨places, hplaces⟩ : ∃ places, 1074 - spacing x.magnitude = places + 1 :=
    ⟨1074 - spacing x.magnitude - 1, by omega⟩
  have hwhole : (Shortest.expansion x).whole = significand x.magnitude * 5 ^ (places + 1) := by
    show _ * 2 ^ (spacing x.magnitude - 1074) * 5 ^ (1074 - spacing x.magnitude) = _
    rw [Nat.sub_eq_zero_of_le (Nat.le_of_lt hs), Nat.pow_zero, Nat.mul_one, hplaces]
  have hpos : significand x.magnitude * 5 ^ (places + 1) ≠ 0 :=
    Nat.mul_ne_zero (Nat.ne_of_gt (significand_pos hz))
      (Nat.ne_of_gt (Nat.pow_pos (by decide)))
  -- five is more than four, so every place adds at least two bits
  have hlog : 2 * (places + 1) ≤ (significand x.magnitude * 5 ^ (places + 1)).log2 := by
    rw [Nat.le_log2 hpos]
    calc 2 ^ (2 * (places + 1)) = 4 ^ (places + 1) := by rw [Nat.pow_mul]
      _ ≤ 5 ^ (places + 1) := Nat.pow_le_pow_left (by decide) _
      _ ≤ significand x.magnitude * 5 ^ (places + 1) :=
          Nat.le_mul_of_pos_left _ (significand_pos hz)
  have hexact : significand x.magnitude * 5 ^ (places + 1) * 2 ^ 1074 =
      units x.magnitude * 10 ^ (places + 1) := by
    -- the power of ten has just the twos that the spacing leaves over
    have hsplit : 2 ^ 1074 = 2 ^ spacing x.magnitude * 2 ^ (places + 1) := by
      rw [← Nat.pow_add]
      congr 1
      omega
    have hten : 10 ^ (places + 1) = 2 ^ (places + 1) * 5 ^ (places + 1) := by
      rw [← Nat.mul_pow]
    rw [units, hsplit, hten]
    generalize 2 ^ spacing x.magnitude = s, 2 ^ (places + 1) = t, 5 ^ (places + 1) = f
    rw [Nat.mul_assoc, Nat.mul_assoc, Nat.mul_left_comm f, Nat.mul_comm f]
  rw [Literal.toBinary64?, weighed_expansion h, hwhole, hplaces]
  show ofDecimal x.isNegative _ (.negSucc places) = some x
  unfold ofDecimal
  rw [if_neg hpos]
  dsimp only
  rw [if_neg (by omega)]
  exact ofMagnitude?_nearest h (Nat.pow_pos (by decide)) hexact

theorem expansion_toBinary64? {x : Binary64} (h : x.magnitude < infinity)
    (hz : x.magnitude ≠ 0) : (Shortest.expansion x).toBinary64? = some x := by
  rcases Nat.lt_or_ge (spacing x.magnitude) 1074 with hs | hs
  · exact expansion_narrow h hz hs
  · exact expansion_wide h hz hs

/-! ## What is written -/

/-- A literal that spells no integer and is read as the number. -/
def ReadsBack (x : Binary64) (l : Literal) : Prop :=
  l.toBinary64? = some x ∧ l.integer? = none

theorem positional_integer? (negative : Bool) (digits : List Char) (point : Int)
    (h : ∀ c ∈ digits, c.isDigit = true) :
    (Layout.positional negative digits point h).integer? = none := by
  refine if_pos (.inl ?_)
  cases point with
  | ofNat places =>
      show (if digits.drop places = [] then ['0'] else digits.drop places) ≠ []
      split
      next => exact List.cons_ne_nil _ _
      next h => exact h
  | negSucc zeros => exact List.cons_ne_nil _ _

/-- No layout makes an integer of a number. -/
theorem layout_integer? (layout : Layout) (negative : Bool) (d : Scaled) :
    (layout.literal negative d).integer? = none := by
  unfold Layout.literal
  dsimp only
  split
  next => exact positional_integer? ..
  next => exact if_pos (.inr (.inl (Option.some_ne_none _)))

theorem accept?_readsBack {layout : Layout} {x : Binary64} {d : Scaled} {l : Literal}
    (h : Shortest.accept? layout x d = some l) : ReadsBack x l := by
  unfold Shortest.accept? at h
  dsimp only at h
  split at h
  next hread =>
    obtain rfl := Option.some.inj h
    exact ⟨hread, layout_integer? ..⟩
  next => cases h

theorem neighbour?_readsBack {layout : Layout} {x : Binary64} {scale : Int} {l : Literal}
    (h : Shortest.neighbour? layout x scale = some l) : ReadsBack x l := by
  unfold Shortest.neighbour? at h
  dsimp only at h
  split at h
  next hbelow habove =>
    obtain rfl := Option.some.inj h
    split
    · exact accept?_readsBack hbelow
    · exact accept?_readsBack habove
  next hbelow habove =>
    obtain rfl := Option.some.inj h
    exact accept?_readsBack hbelow
  next => exact accept?_readsBack h

theorem expansion_readsBack {x : Binary64} (h : x.magnitude < infinity) (hz : x.magnitude ≠ 0) :
    ReadsBack x (Shortest.expansion x) :=
  ⟨expansion_toBinary64? h hz, if_pos (.inr (.inl (Option.some_ne_none _)))⟩

theorem shortest_readsBack (layout : Layout) {x : Binary64} (h : x.magnitude < infinity)
    (hz : x.magnitude ≠ 0) : ReadsBack x (x.shortest layout) := by
  unfold shortest
  dsimp only
  rcases hfound : (List.range 17).findSome? _ with _ | l
  · exact expansion_readsBack h hz
  · obtain ⟨n, -, hl⟩ := List.exists_of_findSome?_eq_some hfound
    exact neighbour?_readsBack hl

theorem zero_readsBack (negative : Bool) :
    ReadsBack (ofMagnitude negative 0) (Layout.plain.literal negative ⟨0, 0⟩) := by
  refine ⟨?_, layout_integer? ..⟩
  cases negative with
  | false => decide +kernel
  | true => decide +kernel

/-- **Numbers.** What a number is written as is read as that number, zeros with their sign, and is
no integer. -/
theorem readsBack_of_literal? {x : Binary64} {l : Literal} (h : x.literal? = some l) :
    ReadsBack x l := by
  unfold literal? at h
  split at h
  next => cases h
  next hfinite =>
    split at h
    next hzero =>
      obtain rfl := Option.some.inj h
      have hx := ofMagnitude_magnitude x
      rw [of_decide_eq_true hzero] at hx
      have hback := zero_readsBack x.isNegative
      rw [hx] at hback
      exact hback
    next hzero =>
      obtain rfl := Option.some.inj h
      rw [Bool.not_eq_true', Bool.not_eq_false] at hfinite
      refine shortest_readsBack .plain (of_decide_eq_true hfinite) ?_
      intro heq
      exact hzero (decide_eq_true heq)

theorem literal?_eq_none (x : Binary64) : x.literal? = none ↔ x.isFinite = false := by
  unfold literal?
  cases x.isFinite with
  | false => simp
  | true =>
      rw [if_neg (by simp)]
      split <;> simp

end FlowEvents.Decimal.Binary64
