import DotPath.Number.Binary64
import Mathlib

/-!
# Doubles made from their bits, and rounded whole numbers

A double is a pattern of bits with a sign, an exponent and a mantissa. Making a double from bits
unpacks the pattern and packs it again, and the library has that only what is no number loses
anything in this. So the sign and the magnitude bits that a double is made from are those that it
has.

A whole number is rounded to 53 bits. What is rounded is no less than the power of two below it,
for the mantissa is no less than its leading bit, and a carry only makes it larger. So a number
outside of a range whose ends are powers of two is cut to the same end before and after rounding.

## Main results

* `toBits_ofBits`: the bits of a double are those that it is made from.
* `two_pow_le_wholePart`: rounding a whole number leads to no power of two below it.
* `truncateTo_of_large`, `truncateTo_neg_of_large`: whole numbers cut to the end of a range.
-/

namespace DotPath.Binary64

open Float.Model Float.Model.UnpackedFloat

/-! ## Bits -/

/-- Up to the bits of the infinity, magnitude bits stand for a number. -/
theorem isNaNBits_eq_false {v : BitVec 64} (h : v.toNat % signBit ≤ infinityBits) :
    @isNaNBits .binary64 v = false := by
  have hexponent : (@unpackExponent .binary64 v).toNat = v.toNat / 2 ^ 52 % 2 ^ 11 := by
    rw [unpackExponent_def, BitVec.extractLsb'_toNat, Nat.shiftRight_eq_div_pow]
  have hmantissa : (@unpackMantissa .binary64 v).toNat = v.toNat % 2 ^ 52 := by
    rw [unpackMantissa_def, BitVec.extractLsb'_toNat, Nat.shiftRight_zero]
  rw [signBit, infinityBits] at h
  refine decide_eq_false fun ⟨hlast, hrest⟩ => hrest (BitVec.eq_of_toNat_eq ?_)
  have hones : (@unpackExponent .binary64 v).toNat = 2047 := by
    rw [hlast]
    rfl
  rw [hmantissa, BitVec.toNat_zero]
  omega

/-- The bits of a double that is made from bits, if they stand for a number. -/
theorem toBits_ofBits {n : Nat} (hn : n < 2 ^ 64) (h : n % signBit ≤ infinityBits) :
    (Float.ofBits (.ofNat n)).toBits.toNat = n := by
  have hv : (UInt64.ofNat n).toBitVec.toNat = n := by
    simpa using hn
  have hnumber : @isNaNBits .binary64 (UInt64.ofNat n).toBitVec = false :=
    isNaNBits_eq_false (by rw [hv]; exact h)
  show (UnpackedFloat.pack .binary64
    (UnpackedFloat.unpack .binary64 (UInt64.ofNat n).toBitVec)).toNat = n
  rw [pack_unpack, hnumber, if_neg Bool.false_ne_true, hv]

section OfMagnitude

variable {negative : Bool} {b : Nat}

theorem toBits_ofMagnitude (hb : b ≤ infinityBits) :
    (ofMagnitude negative b).toBits.toNat = if negative then signBit + b else b := by
  have hlt : b < signBit := Nat.lt_of_le_of_lt hb (by decide)
  cases negative with
  | false =>
      have hmod : b % signBit ≤ infinityBits := by
        rwa [Nat.mod_eq_of_lt hlt]
      exact toBits_ofBits (Nat.lt_trans hlt (by decide)) hmod
  | true =>
      have hmod : (signBit + b) % signBit ≤ infinityBits := by
        rwa [Nat.add_mod_left, Nat.mod_eq_of_lt hlt]
      have hfits : signBit + b < 2 ^ 64 := by
        simp only [signBit] at hlt ⊢
        omega
      exact toBits_ofBits hfits hmod

theorem magnitude_ofMagnitude (hb : b ≤ infinityBits) :
    magnitude (ofMagnitude negative b) = b := by
  have hlt : b < signBit := Nat.lt_of_le_of_lt hb (by decide)
  rw [magnitude, toBits_ofMagnitude hb]
  cases negative with
  | false => exact Nat.mod_eq_of_lt hlt
  | true => exact (Nat.add_mod_left _ _).trans (Nat.mod_eq_of_lt hlt)

theorem isNegative_ofMagnitude (hb : b ≤ infinityBits) :
    isNegative (ofMagnitude negative b) = negative := by
  have hlt : b < signBit := Nat.lt_of_le_of_lt hb (by decide)
  rw [isNegative, toBits_ofMagnitude hb]
  cases negative with
  | false => exact decide_eq_false (Nat.not_le.2 hlt)
  | true => exact decide_eq_true (Nat.le_add_right _ _)

end OfMagnitude

/-! ## Rounding whole numbers -/

theorem leadingBit_eq : leadingBit = 2 ^ 52 := by
  decide

/-- A quotient is rounded to one of the whole numbers around it. -/
theorem roundDiv_bounds (n d : Nat) : n / d ≤ roundDiv n d ∧ roundDiv n d ≤ n / d + 1 := by
  unfold roundDiv
  dsimp only
  split
  · omega
  · split <;> omega

/-- The whole part of a normal double that has no fraction. -/
theorem wholePart_normal {j m : Nat} (hm : m < leadingBit) :
    wholePart ((j + 1075) * leadingBit + m) = (leadingBit + m) * 2 ^ j := by
  have hnormal : ¬ (j + 1075) * leadingBit + m < leadingBit := by
    simp only [leadingBit]
    omega
  have hmantissa : mantissa ((j + 1075) * leadingBit + m) = leadingBit + m := by
    rw [mantissa, if_neg hnormal, Nat.mul_add_mod_of_lt hm]
  have hexponent : exponent ((j + 1075) * leadingBit + m) = (j : Nat) := by
    have hdiv : ((j + 1075) * leadingBit + m) / leadingBit = j + 1075 := by
      simp only [leadingBit] at hm ⊢
      omega
    rw [exponent, if_neg hnormal, hdiv, leastExponent]
    omega
  rw [wholePart, hmantissa, hexponent]
  simp [Nat.shiftLeft_eq]

/-- So it is where rounding has made the mantissa one too large: the exponent takes the carry. -/
theorem wholePart_of_rounded {j r : Nat} (hlow : leadingBit ≤ r) (hhigh : r ≤ 2 * leadingBit) :
    wholePart ((j + 1074) * leadingBit + r) = r * 2 ^ j := by
  rcases Nat.lt_or_eq_of_le hhigh with hlt | rfl
  · obtain ⟨m, rfl⟩ := Nat.exists_eq_add_of_le hlow
    rw [← wholePart_normal (by omega), ← Nat.add_assoc, ← Nat.succ_mul]
  · have hcarry : (j + 1074) * leadingBit + 2 * leadingBit = (j + 1 + 1075) * leadingBit + 0 := by
      simp only [leadingBit]
      omega
    rw [hcarry, wholePart_normal (Nat.two_pow_pos 52), Nat.add_zero, Nat.pow_succ,
      Nat.mul_comm (2 ^ j), ← Nat.mul_assoc, Nat.mul_comm leadingBit]

section Whole

variable {n : Nat}

/-- A whole number of at least 53 bits is scaled down to a mantissa of 53 bits. -/
theorem bitsOfRatio_one (hn : leadingBit ≤ n) :
    bitsOfRatio n 1 = min infinityBits
      ((Nat.log2 n + 1022) * leadingBit + roundDiv n (2 ^ (Nat.log2 n - 52))) := by
  have hpos : n ≠ 0 := Nat.ne_of_gt (Nat.lt_of_lt_of_le (by decide) hn)
  obtain ⟨j, hj⟩ := Nat.exists_eq_add_of_le ((Nat.le_log2 hpos).2 (leadingBit_eq ▸ hn))
  have hestimate : (Nat.log2 n : Int) - Nat.log2 1 - 52 = (j : Nat) := by
    have hone : Nat.log2 1 = 0 := by decide
    omega
  have hscaled : scaled n 1 (j : Nat) = (n, 2 ^ j) := by
    simp [scaled, Nat.shiftLeft_eq]
  have hle : ¬ n < 2 ^ j * leadingBit := by
    have hself := Nat.log2_self_le hpos
    rw [hj, Nat.add_comm, Nat.pow_add, ← leadingBit_eq] at hself
    exact Nat.not_lt.2 hself
  have hexponent : exponentOfRatio n 1 = (j : Nat) := by
    rw [exponentOfRatio, hestimate, hscaled]
    dsimp only
    rw [if_neg hle, leastExponent]
    omega
  rw [bitsOfRatio, hexponent, hscaled, hj]
  dsimp only
  congr 3
  · rw [leastExponent]
    omega
  · rw [Nat.add_sub_cancel_left]

theorem bitsOfDecimal_whole (hn : n ≠ 0) : bitsOfDecimal n 0 = bitsOfRatio n 1 := by
  rw [bitsOfDecimal, if_neg (by simpa using hn), if_neg (by decide), if_neg (by omega)]
  simp

/-- The mantissa before it is rounded: its leading bit is the 53rd. -/
theorem div_two_pow_bounds {j : Nat} (hn : n ≠ 0) (hj : Nat.log2 n = 52 + j) :
    leadingBit ≤ n / 2 ^ j ∧ n / 2 ^ j < 2 * leadingBit := by
  rw [Nat.le_div_iff_mul_le (Nat.two_pow_pos j), Nat.div_lt_iff_lt_mul (Nat.two_pow_pos j)]
  constructor
  · have hself := Nat.log2_self_le hn
    rwa [hj, Nat.pow_add, ← leadingBit_eq] at hself
  · have hself := Nat.lt_log2_self (n := n)
    rwa [hj, Nat.add_right_comm, Nat.pow_add, Nat.pow_succ, ← leadingBit_eq,
      Nat.mul_comm leadingBit] at hself

/-- Rounding a whole number leads to no power of two below it. -/
theorem two_pow_le_wholePart {k : Nat} (hk : 52 ≤ k) (hn : 2 ^ k ≤ n)
    (hfinite : bitsOfDecimal n 0 ≠ infinityBits) : 2 ^ k ≤ wholePart (bitsOfDecimal n 0) := by
  have hlarge : leadingBit ≤ n := by
    rw [leadingBit_eq]
    exact Nat.le_trans (Nat.pow_le_pow_right Nat.two_pos hk) hn
  have hpos : n ≠ 0 := Nat.ne_of_gt (Nat.lt_of_lt_of_le (by decide) hlarge)
  have hlog := (Nat.le_log2 hpos).2 hn
  obtain ⟨j, hj⟩ := Nat.exists_eq_add_of_le (Nat.le_trans hk hlog)
  have hexponent : 52 + j + 1022 = j + 1074 := by omega
  rw [bitsOfDecimal_whole hpos, bitsOfRatio_one hlarge, hj, Nat.add_sub_cancel_left, hexponent]
    at hfinite ⊢
  have hmin : (j + 1074) * leadingBit + roundDiv n (2 ^ j) ≤ infinityBits :=
    Nat.le_of_not_le fun h => hfinite (Nat.min_eq_left h)
  obtain ⟨hleast, hmost⟩ := div_two_pow_bounds hpos hj
  obtain ⟨hlow, hhigh⟩ := roundDiv_bounds n (2 ^ j)
  rw [Nat.min_eq_right hmin,
    wholePart_of_rounded (Nat.le_trans hleast hlow) (Nat.le_trans hhigh hmost)]
  calc 2 ^ k ≤ 2 ^ (52 + j) := Nat.pow_le_pow_right Nat.two_pos (hj ▸ hlog)
    _ = leadingBit * 2 ^ j := by rw [leadingBit_eq, Nat.pow_add]
    _ ≤ roundDiv n (2 ^ j) * 2 ^ j := Nat.mul_le_mul_right _ (Nat.le_trans hleast hlow)

end Whole

/-! ## Cutting to a range -/

theorem bitsOfDecimal_le (digits : Nat) (e : Int) : bitsOfDecimal digits e ≤ infinityBits := by
  unfold bitsOfDecimal
  split
  · exact Nat.zero_le _
  · split
    · exact Nat.le_refl _
    · split
      · exact Nat.zero_le _
      · exact Nat.min_le_left _ _

/-- What is read from a decimal is a number, or infinite. -/
theorem isNaN_ofDecimal (negative : Bool) (digits : Nat) (e : Int) :
    isNaN (ofDecimal negative digits e) = false := by
  have hb := bitsOfDecimal_le digits e
  rw [isNaN, ofDecimal, magnitude_ofMagnitude hb]
  exact decide_eq_false (Nat.not_lt.2 hb)

section Truncate

variable {lo hi : Int} {n k : Nat}

/-- A rounded number is cut to its whole part, and to the end of the range if it is infinite. -/
theorem truncateTo_ofDecimal (negative : Bool) (lo hi : Int) (n : Nat) (e : Int) :
    truncateTo lo hi (ofDecimal negative n e) =
      if bitsOfDecimal n e = infinityBits then if negative then lo else hi
      else max lo (min hi (if negative then -(wholePart (bitsOfDecimal n e) : Int)
        else wholePart (bitsOfDecimal n e))) := by
  have hb := bitsOfDecimal_le n e
  rw [truncateTo, ofDecimal, magnitude_ofMagnitude hb, isNegative_ofMagnitude hb]
  dsimp only
  rw [if_neg (Nat.not_lt.2 hb)]
  simp only [beq_iff_eq]

/-- Above the range a whole number is cut to its greatest number. -/
theorem truncateTo_of_large (hk : 52 ≤ k) (hn : 2 ^ k ≤ n) (hlo : lo ≤ hi) (hhi : hi ≤ 2 ^ k) :
    truncateTo lo hi (ofDecimal false n 0) = hi := by
  rw [truncateTo_ofDecimal]
  split
  · rfl
  · next hfinite =>
      have hwhole : (2 ^ k : Int) ≤ wholePart (bitsOfDecimal n 0) := by
        exact_mod_cast two_pow_le_wholePart hk hn hfinite
      rw [if_neg Bool.false_ne_true]
      omega

/-- Below the range a whole number is cut to its least number. -/
theorem truncateTo_neg_of_large (hk : 52 ≤ k) (hn : 2 ^ k ≤ n) (hlo : -2 ^ k ≤ lo) :
    truncateTo lo hi (ofDecimal true n 0) = lo := by
  rw [truncateTo_ofDecimal]
  split
  · rfl
  · next hfinite =>
      have hwhole : (2 ^ k : Int) ≤ wholePart (bitsOfDecimal n 0) := by
        exact_mod_cast two_pow_le_wholePart hk hn hfinite
      rw [if_pos rfl]
      omega

/-- A range from zero on cuts what is negative to zero, the negative zero included. -/
theorem truncateTo_zero_neg (n : Nat) (e : Int) : truncateTo 0 hi (ofDecimal true n e) = 0 := by
  rw [truncateTo_ofDecimal]
  split
  · rfl
  · rw [if_pos rfl]
    omega

end Truncate

end DotPath.Binary64
