import FlowEvents.Proofs.Decimal.ReadBack
import Mathlib.Algebra.Order.Field.Rat
import Mathlib.Tactic.FieldSimp
import Mathlib.Tactic.GCongr
import Mathlib.Tactic.Linarith
import Mathlib.Tactic.NormNum
import Mathlib.Tactic.Positivity
import Mathlib.Tactic.Ring

/-! # Which literals are too large

A literal is read as the number nearest to it.  The greatest finite number is
`(2 ^ 53 - 1) * 2 ^ 971`; a literal goes beyond it from the point on that lies halfway to the next
power of two, as that point is rounded to the even side, which is the far one.

The reader gets there by several ways: a literal with a large exponent is refused by its bits
alone, and one with many digits is cut short first.  None of them moves that point.
-/

namespace FlowEvents.Decimal

/-- The number that a decimal writes. -/
def Scaled.value (d : Scaled) : ℚ :=
  d.coefficient * 10 ^ d.scale

namespace Binary64

/-- Half a step above the greatest finite number.  It is never to be written out. -/
@[irreducible]
def limit : Nat := (2 ^ 54 - 1) * 2 ^ 970

/-! ## Rounding -/

theorem roundHalfEven_le {num den q : Nat} (h : 2 * num < (2 * q + 1) * den) :
    roundHalfEven num den ≤ q := by
  have hdiv := Nat.div_add_mod num den
  unfold roundHalfEven
  dsimp only
  generalize num / den = quotient, num % den = rest at *
  rcases Nat.lt_trichotomy quotient q with hlt | rfl | hgt
  · split_ifs <;> omega
  · -- the rest is less than half of what is divided by
    rw [if_pos (by nlinarith)]
  · have hmul : den * (q + 1) ≤ den * quotient := Nat.mul_le_mul_left den hgt
    exfalso
    nlinarith

theorem le_roundHalfEven {num den q : Nat} (heven : q % 2 = 0) (hden : 0 < den)
    (h : 2 * q * den ≤ 2 * num + den) : q ≤ roundHalfEven num den := by
  have hdiv := Nat.div_add_mod num den
  have hmod := Nat.mod_lt num hden
  unfold roundHalfEven
  dsimp only
  generalize num / den = quotient, num % den = rest at *
  rcases Nat.lt_or_ge quotient q with hlt | hge
  · obtain rfl : quotient + 1 = q := by
      by_contra hne
      have hmul : den * (quotient + 2) ≤ den * q := Nat.mul_le_mul_left den (by omega)
      nlinarith
    -- the quotient is odd, so the halfway point goes up
    have hrest : den ≤ 2 * rest := by nlinarith
    split_ifs <;> omega
  · split_ifs <;> omega

theorem two_pow_split {a b c : Nat} (h : c = a + b) : 2 ^ c = 2 ^ a * 2 ^ b := by
  rw [h, Nat.pow_add]

/-- How a quotient lies to the spacing that it is rounded with. -/
theorem spacing_spec {scaled den : Nat} (hden : 0 < den) {s : Nat}
    (hs : (scaled / den).log2 - 52 = s) :
    scaled < 2 ^ 53 * (den * 2 ^ s) ∧ (0 < s → 2 ^ 52 * (den * 2 ^ s) ≤ scaled) := by
  constructor
  · have hlt : scaled / den < 2 ^ (53 + s) :=
      Nat.lt_of_lt_of_le Nat.lt_log2_self (Nat.pow_le_pow_right (by decide) (by omega))
    rw [Nat.div_lt_iff_lt_mul hden, Nat.pow_add, Nat.mul_assoc, Nat.mul_comm (2 ^ s)] at hlt
    exact hlt
  · intro hpos
    have hne : scaled / den ≠ 0 := by
      intro hzero
      rw [hzero, Nat.log2_zero] at hs
      omega
    have hle : 2 ^ (52 + s) ≤ scaled / den := by
      refine Nat.le_trans ?_ (Nat.log2_self_le hne)
      exact Nat.pow_le_pow_right (by decide) (by omega)
    rw [Nat.le_div_iff_mul_le hden, Nat.pow_add, Nat.mul_assoc, Nat.mul_comm (2 ^ s)] at hle
    exact hle

/-- A quotient is rounded to a magnitude with a spacing of at most `t + 1` if and only if it lies
below the point halfway to the next power of two. -/
theorem rounded_lt_iff {scaled den s : Nat} (t : Nat) (hden : 0 < den)
    (hs : (scaled / den).log2 - 52 = s) :
    s * 2 ^ 52 + roundHalfEven scaled (den * 2 ^ s) < (t + 3) * 2 ^ 52 ↔
      scaled < (2 ^ 54 - 1) * (den * 2 ^ t) := by
  obtain ⟨hbelow, habove⟩ := spacing_spec hden hs
  have hpos : 0 < den * 2 ^ t := Nat.mul_pos hden (Nat.two_pow_pos t)
  have hscale (k : Nat) : den * 2 ^ (t + k) = 2 ^ k * (den * 2 ^ t) := by
    rw [Nat.pow_add]
    ring
  rcases Nat.lt_trichotomy s (t + 1) with hlt | rfl | hgt
  · -- numbers that are spaced closer stay below on either side
    have hround : roundHalfEven scaled (den * 2 ^ s) ≤ 2 ^ 53 := roundHalfEven_le (by omega)
    have hpow : den * 2 ^ s ≤ den * 2 ^ t :=
      Nat.mul_le_mul_left den (Nat.pow_le_pow_right (by decide) (by omega))
    exact iff_of_true (by omega) (by omega)
  · rw [hscale, Nat.pow_one] at *
    generalize den * 2 ^ t = unit at *
    constructor
    · intro hfinite
      by_contra hlarge
      have hround : 2 ^ 53 ≤ roundHalfEven scaled (2 * unit) :=
        le_roundHalfEven (by decide) (by omega) (by omega)
      omega
    · intro hsmall
      have hround : roundHalfEven scaled (2 * unit) ≤ 2 ^ 53 - 1 := roundHalfEven_le (by omega)
      omega
  · have habove := habove (by omega)
    have hround : 2 ^ 52 ≤ roundHalfEven scaled (den * 2 ^ s) :=
      le_roundHalfEven (by decide) (Nat.mul_pos hden (Nat.two_pow_pos s)) (by omega)
    have hpow : den * 2 ^ (t + 2) ≤ den * 2 ^ s :=
      Nat.mul_le_mul_left den (Nat.pow_le_pow_right (by decide) hgt)
    rw [hscale] at hpow
    exact iff_of_false (by omega) (by omega)

/-- A quotient is rounded to a finite magnitude if and only if it lies below the limit. -/
theorem nearest_lt_infinity_iff {num den : Nat} (hden : 0 < den) :
    nearest num den < infinity ↔ num < limit * den := by
  have hlimit : (2 ^ 54 - 1) * (den * 2 ^ 2044) = limit * den * 2 ^ 1074 := by
    unfold limit
    rw [two_pow_split (show 2044 = 970 + 1074 from rfl)]
    generalize 2 ^ 970 = a, 2 ^ 1074 = b
    ring
  have hrounded : nearest num den < infinity ↔ num * 2 ^ 1074 < limit * den * 2 ^ 1074 := by
    rw [← hlimit]
    exact rounded_lt_iff 2044 hden rfl
  rw [hrounded]
  exact Nat.mul_lt_mul_right (Nat.two_pow_pos 1074)

theorem ofMagnitude?_eq_none_iff (negative : Bool) (mag : Nat) :
    ofMagnitude? negative mag = none ↔ ¬ mag < infinity := by
  unfold ofMagnitude?
  split_ifs with h <;> simp [h]

/-! ## Decimals -/

/-- A number whose bits alone say that it is large is beyond the limit. -/
theorem limit_le_of_log2 {c power : Nat} (hc : c ≠ 0) (h : 1024 ≤ c.log2 + 3 * power) :
    limit ≤ c * 10 ^ power := by
  calc limit ≤ 2 ^ 1024 := by decide +kernel
    _ ≤ 2 ^ (c.log2 + 3 * power) := Nat.pow_le_pow_right (by decide) h
    _ = 2 ^ c.log2 * 8 ^ power := by rw [Nat.pow_add, Nat.pow_mul]
    _ ≤ c * 10 ^ power :=
        Nat.mul_le_mul (Nat.log2_self_le hc) (Nat.pow_le_pow_left (by decide) power)

/-- A number whose bits alone say that it is small is below one. -/
theorem lt_of_log2 {c power : Nat} (h : c.log2 + 1077 ≤ 3 * power) : c < 10 ^ power := by
  calc c < 2 ^ (c.log2 + 1) := Nat.lt_log2_self
    _ ≤ 2 ^ (3 * power) := Nat.pow_le_pow_right (by decide) (by omega)
    _ = 8 ^ power := by rw [Nat.pow_mul]
    _ ≤ 10 ^ power := Nat.pow_le_pow_left (by decide) power

theorem limit_pos : 0 < limit := by decide +kernel

/-- A decimal has no number if and only if it reaches the limit. -/
theorem ofDecimal_eq_none_iff (negative : Bool) (d : Scaled) :
    ofDecimal negative d.coefficient d.scale = none ↔ (limit : ℚ) ≤ d.value := by
  obtain ⟨c, scale⟩ := d
  unfold ofDecimal Scaled.value
  dsimp only
  by_cases hc : c = 0
  · have hlimit : ¬ (limit : ℚ) ≤ 0 := by exact_mod_cast Nat.not_le.mpr limit_pos
    rw [if_pos hc, hc, Nat.cast_zero, zero_mul]
    exact iff_of_false (Option.some_ne_none _) hlimit
  rw [if_neg hc]
  cases scale with
  | ofNat power =>
      have hvalue : (limit : ℚ) ≤ c * 10 ^ (Int.ofNat power) ↔ limit ≤ c * 10 ^ power := by
        rw [Int.ofNat_eq_natCast, zpow_natCast]
        exact_mod_cast Iff.rfl
      rw [hvalue]
      dsimp only
      split_ifs with hlarge
      · exact iff_of_true rfl (limit_le_of_log2 hc hlarge)
      · rw [ofMagnitude?_eq_none_iff, nearest_lt_infinity_iff Nat.one_pos, Nat.mul_one, Nat.not_lt]
  | negSucc power =>
      have hpow : (0 : ℚ) < 10 ^ (power + 1) := by positivity
      have hvalue : (limit : ℚ) ≤ c * 10 ^ (Int.negSucc power) ↔ limit * 10 ^ (power + 1) ≤ c := by
        rw [zpow_negSucc, ← div_eq_mul_inv, le_div_iff₀ hpow]
        exact_mod_cast Iff.rfl
      rw [hvalue]
      dsimp only
      split_ifs with hsmall
      · have hlt := lt_of_log2 hsmall
        have hle : 1 * 10 ^ (power + 1) ≤ limit * 10 ^ (power + 1) :=
          Nat.mul_le_mul_right _ limit_pos
        exact iff_of_false (by simp) (by omega)
      · rw [ofMagnitude?_eq_none_iff, nearest_lt_infinity_iff (Nat.pow_pos (by decide)), Nat.not_lt]

/-! ## What is read is finite -/

theorem isFinite_ofMagnitude (negative : Bool) {mag : Nat} (h : mag < infinity) :
    (ofMagnitude negative mag).isFinite = true := by
  have hinfinity : infinity < 2 ^ 63 := by decide
  have hmag : (ofMagnitude negative mag).magnitude = mag := by
    unfold magnitude ofMagnitude
    dsimp only
    rw [UInt64.toNat_ofNat']
    split_ifs <;> omega
  rw [isFinite, hmag]
  exact decide_eq_true h

theorem isFinite_of_ofMagnitude? {negative : Bool} {mag : Nat} {x : Binary64}
    (h : ofMagnitude? negative mag = some x) : x.isFinite = true := by
  unfold ofMagnitude? at h
  split_ifs at h with hmag
  obtain rfl := Option.some.inj h
  exact isFinite_ofMagnitude negative hmag

theorem isFinite_of_ofDecimal {negative : Bool} {c : Nat} {scale : Int} {x : Binary64}
    (h : ofDecimal negative c scale = some x) : x.isFinite = true := by
  have hzero : (ofMagnitude negative 0).isFinite = true :=
    isFinite_ofMagnitude negative (by decide)
  unfold ofDecimal at h
  split_ifs at h
  · exact Option.some.inj h ▸ hzero
  · split at h
    · split_ifs at h
      exact isFinite_of_ofMagnitude? h
    · split_ifs at h
      · exact Option.some.inj h ▸ hzero
      · exact isFinite_of_ofMagnitude? h

end Binary64

/-! ## Long literals -/

open Binary64 (limit)

/-- What a decimal with many digits has behind its first ones does not take it to the limit. -/
theorem limit_le_of_tail {q : Nat} (hq : 10 ^ 767 ≤ q) {tail : ℚ} (hlow : 0 ≤ tail) (hhigh : tail < 1)
    (e : Int) : (limit : ℚ) ≤ (q + tail) * 10 ^ e ↔ (limit : ℚ) ≤ q * 10 ^ e := by
  rcases lt_or_ge e 0 with hneg | hpos
  · -- both sides are whole multiples of the power of ten, and the tail is less than one of them
    obtain ⟨k, rfl⟩ : ∃ k : Nat, e = -k := ⟨e.natAbs, by omega⟩
    have hpow : (0 : ℚ) < 10 ^ k := by positivity
    rw [zpow_neg, zpow_natCast, ← div_eq_mul_inv, ← div_eq_mul_inv, le_div_iff₀ hpow,
      le_div_iff₀ hpow]
    constructor
    · intro h
      have hlt : ((limit * 10 ^ k : Nat) : ℚ) < ((q + 1 : Nat) : ℚ) := by
        push_cast
        linarith
      have hle : limit * 10 ^ k ≤ q := Nat.lt_succ_iff.mp (by exact_mod_cast hlt)
      exact_mod_cast hle
    · intro h
      linarith
  · obtain ⟨k, rfl⟩ := Int.eq_ofNat_of_zero_le hpos
    have hlimit : (limit : ℚ) ≤ q := by
      have hle : limit ≤ 10 ^ 767 := by decide +kernel
      exact_mod_cast Nat.le_trans hle hq
    have hpow : (1 : ℚ) ≤ 10 ^ (k : Int) := by
      rw [zpow_natCast]
      exact_mod_cast Nat.one_le_pow k 10 (by decide)
    have hq0 : (0 : ℚ) ≤ q := Nat.cast_nonneg q
    exact iff_of_true (by nlinarith) (by nlinarith)

/-- Jamming the tail of a decimal does not take it across the limit. -/
theorem Scaled.limit_le_jam (d : Scaled) : (limit : ℚ) ≤ d.jam.value ↔ (limit : ℚ) ≤ d.value := by
  obtain ⟨c, scale⟩ := d
  unfold Scaled.jam
  dsimp only
  generalize hsurplus : (Nat.toDigits 10 c).length - weighedDigits = s
  split_ifs with hs
  · rfl
  have hten : (10 : ℚ) ≠ 0 := by norm_num
  have hpow : (0 : ℚ) < 10 ^ s := by positivity
  -- the first digits, and what is behind them as a part of the last of them
  have hq : 10 ^ 767 ≤ c / 10 ^ s := by
    have hlength : ¬ (Nat.toDigits 10 c).length ≤ 767 + s := by
      unfold weighedDigits at hsurplus
      omega
    rw [Nat.length_toDigits_le_iff (by decide) (by omega), Nat.not_lt, Nat.pow_add] at hlength
    exact (Nat.le_div_iff_mul_le (Nat.pow_pos (by decide))).mpr hlength
  have hjam : Scaled.value ⟨c / 10 ^ s * 10 + 1, scale + s - 1⟩ =
      ((c / 10 ^ s : Nat) + 1 / 10) * 10 ^ (scale + s) := by
    unfold Scaled.value
    rw [zpow_sub_one₀ hten]
    push_cast
    ring
  have hvalue : Scaled.value ⟨c, scale⟩ =
      ((c / 10 ^ s : Nat) + (c % 10 ^ s : Nat) / 10 ^ s) * 10 ^ (scale + s) := by
    have hsplit : (c : ℚ) = 10 ^ s * (c / 10 ^ s : Nat) + (c % 10 ^ s : Nat) := by
      exact_mod_cast (Nat.div_add_mod c (10 ^ s)).symm
    unfold Scaled.value
    dsimp only
    rw [zpow_add₀ hten, zpow_natCast]
    rw [hsplit]
    field_simp
  have hmod : ((c % 10 ^ s : Nat) : ℚ) < 10 ^ s := by
    exact_mod_cast Nat.mod_lt c (Nat.pow_pos (by decide))
  rw [hjam, hvalue,
    limit_le_of_tail hq (show (0 : ℚ) ≤ 1 / 10 by norm_num) (by norm_num) (scale + s),
    limit_le_of_tail hq (div_nonneg (Nat.cast_nonneg _) (le_of_lt hpow))
      ((div_lt_one hpow).mpr hmod) (scale + s)]

namespace Literal

/-- The zeros at the end of the fraction are worth nothing. -/
theorem value_trimmed (l : Literal) : l.trimmed.value = l.scaled.value := by
  have hten : (10 : ℚ) ≠ 0 := by norm_num
  obtain ⟨digits, zeros, hsplit, htrim⟩ : ∃ digits zeros,
      l.fraction = digits ++ List.replicate zeros '0' ∧
      (l.fraction.reverse.dropWhile (· == '0')).reverse = digits := by
    refine ⟨_, (l.fraction.reverse.takeWhile (· == '0')).length, ?_, rfl⟩
    have hzeros : l.fraction.reverse.takeWhile (· == '0') =
        List.replicate (l.fraction.reverse.takeWhile (· == '0')).length '0' := by
      refine List.eq_replicate_of_mem fun c hc => ?_
      exact beq_iff_eq.mp (List.all_eq_true.mp List.all_takeWhile c hc)
    have hwhole := List.takeWhile_append_dropWhile (p := (· == '0')) (l := l.fraction.reverse)
    rw [← List.reverse_inj, List.reverse_append, List.reverse_reverse, List.reverse_replicate,
      ← hzeros, hwhole]
  unfold trimmed scaled coefficient scale Scaled.value
  dsimp only
  rw [htrim, hsplit, Nat.ofDigitChars_append, Nat.ofDigitChars_replicate_zero, List.length_append,
    List.length_replicate]
  push_cast
  have hscale : l.exponent.getD 0 - (digits.length : Int) =
      l.exponent.getD 0 - (digits.length + zeros) + zeros := by ring
  rw [hscale, zpow_add₀ hten, zpow_natCast]
  ring

/-- What is weighed reaches the limit if and only if the literal does. -/
theorem limit_le_weighed (l : Literal) :
    (limit : ℚ) ≤ l.weighed.value ↔ (limit : ℚ) ≤ l.scaled.value := by
  unfold weighed
  split_ifs
  · rfl
  · rw [Scaled.limit_le_jam, value_trimmed]

/-- The literal lies within the range of the finite numbers. -/
def InRange (l : Literal) : Prop :=
  l.scaled.value < limit

/-- **Range.** A literal has a number if and only if it lies within the range of the finite ones. -/
theorem toBinary64?_eq_none_iff (l : Literal) : l.toBinary64? = none ↔ ¬ l.InRange := by
  rw [toBinary64?, Binary64.ofDecimal_eq_none_iff, limit_le_weighed, InRange, not_lt]

theorem exists_toBinary64? {l : Literal} (h : l.InRange) : ∃ x, l.toBinary64? = some x := by
  rw [← Option.ne_none_iff_exists']
  exact fun hnone => (toBinary64?_eq_none_iff l).mp hnone h

theorem isFinite_of_toBinary64? {l : Literal} {x : Binary64} (h : l.toBinary64? = some x) :
    x.isFinite = true :=
  Binary64.isFinite_of_ofDecimal h

theorem inRange_ofInt (n : Int) : (ofInt n).InRange ↔ n.natAbs < limit := by
  have hvalue : (ofInt n).scaled.value = n.natAbs := by
    show ((n.natAbs : Nat) : ℚ) * 10 ^ (0 - ((0 : Nat) : Int)) = n.natAbs
    simp
  rw [InRange, hvalue, Nat.cast_lt]

end Literal

end FlowEvents.Decimal
