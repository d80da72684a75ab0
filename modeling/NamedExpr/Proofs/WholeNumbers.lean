import NamedExpr.Elementary
import NamedExpr.Proofs.Parts
import NamedExpr.Value
/-!
# Integers as binary64 numbers

The number nearest to an integer below `2 ^ 53` in magnitude is that integer (`Binary64.parts_ofInt_of_small`), and so
it is even or odd as the integer is. From there on the last bit of a mantissa stands for an even number: the number
nearest to an integer is an integer still (`Elementary.isInteger_ofInt`), but never an odd one
(`Elementary.isOddInteger_ofInt`).
-/

namespace NamedExpr

-- Powers are those of the core library, also beside modules that bring others.
attribute [local instance (high)] instPowNat

namespace Binary64

/-- Bits move from the exponent to the mantissa until the mantissa is full, or the exponent is the least one. -/
theorem isCanonical_shift {mantissa : Nat} {exponent : Int} (positive : 0 < mantissa) (below : mantissa < 2 ^ 53)
    (least : -1074 ≤ exponent) (most : exponent ≤ 971) :
    ∃ k : Nat, IsCanonical (mantissa * 2 ^ k) (exponent - k) := by
  have low := Nat.log2_self_le positive.ne'
  have high : mantissa < 2 ^ (mantissa.log2 + 1) := Nat.lt_log2_self
  have log : mantissa.log2 < 53 := (Nat.log2_lt positive.ne').2 below
  refine ⟨min (52 - mantissa.log2) (exponent + 1074).toNat, ?_, by omega, by omega, ?_⟩
  · calc mantissa * 2 ^ min (52 - mantissa.log2) (exponent + 1074).toNat
        < 2 ^ (mantissa.log2 + 1) * 2 ^ min (52 - mantissa.log2) (exponent + 1074).toNat :=
          Nat.mul_lt_mul_of_pos_right high (Nat.two_pow_pos _)
      _ = 2 ^ (mantissa.log2 + 1 + min (52 - mantissa.log2) (exponent + 1074).toNat) := (Nat.pow_add ..).symm
      _ ≤ 2 ^ 53 := Nat.pow_le_pow_right (by decide) (by omega)
  · obtain short | long := Nat.le_total (exponent + 1074).toNat (52 - mantissa.log2)
    · exact .inl (by omega)
    · refine .inr ?_
      rw [Nat.min_eq_left long]
      calc 2 ^ 52 = 2 ^ mantissa.log2 * 2 ^ (52 - mantissa.log2) := by
            rw [← Nat.pow_add]
            congr 1
            omega
        _ ≤ mantissa * 2 ^ (52 - mantissa.log2) := Nat.mul_le_mul_right _ low

/-- The number nearest to an integer has the parts that have its value. -/
theorem parts_ofInt {n : Int} {mantissa : Nat} {exponent : Int} (h : IsCanonical mantissa exponent)
    (same : n.natAbs * 2 ^ (-exponent).toNat = mantissa * 2 ^ exponent.toNat) :
    parts (ofInt n) = .finite (decide (n < 0)) mantissa exponent :=
  parts_nearest h Nat.one_pos (by simpa [fraction] using same)

/-- A small integer is a number. -/
theorem parts_ofInt_of_small {n : Int} (small : n.natAbs < 2 ^ 53) :
    ∃ k : Nat, parts (ofInt n) = .finite (decide (n < 0)) (n.natAbs * 2 ^ k) (-k) := by
  by_cases zero : n = 0
  · subst zero
    obtain ⟨k, least⟩ : ∃ k : Nat, (k : Int) = 1074 := ⟨1074, rfl⟩
    refine ⟨k, ?_⟩
    rw [Int.natAbs_zero, Nat.zero_mul, least]
    exact parts_ofInt isCanonical_zero (by simp only [Int.natAbs_zero, Nat.zero_mul])
  · obtain ⟨k, canonical⟩ := @isCanonical_shift _ 0 (Int.natAbs_pos.2 zero) small (by decide) (by decide)
    rw [Int.zero_sub] at canonical
    exact ⟨k, parts_ofInt canonical (by simp)⟩

theorem roundEven_le {m num den : Nat} (hd : 0 < den) (h : num ≤ m * den) : roundEven num den ≤ m := by
  obtain below | exact := Nat.lt_or_eq_of_le ((Nat.div_le_iff_le_mul_add_pred hd).2 (by rw [Nat.mul_comm]; omega) : num / den ≤ m)
  · simp only [roundEven]
    split
    · omega
    · split <;> omega
  · have whole : num = m * den := Nat.le_antisymm h (by rw [← exact]; exact Nat.div_mul_le_self num den)
    rw [whole, roundEven_mul_self m hd]

/-- The number nearest to a great integer is a multiple of two. -/
theorem parts_ofInt_of_large {n : Int} (large : 2 ^ 53 ≤ n.natAbs) (fits : n.natAbs ≤ 2 ^ 63) :
    ∃ (mantissa : Nat) (exponent : Int), parts (ofInt n) = .finite (decide (n < 0)) mantissa exponent ∧ 1 ≤ exponent := by
  generalize magnitude : n.natAbs = a at large fits
  have nonzero : a ≠ 0 := by omega
  have low := Nat.log2_self_le nonzero
  have high : a < 2 ^ (a.log2 + 1) := Nat.lt_log2_self
  have log : 53 ≤ a.log2 := (Nat.le_log2 nonzero).2 large
  have bound : a.log2 < 64 := (Nat.log2_lt nonzero).2 (by omega)
  have grid : gridExponent a 1 = ((a.log2 - 52 : Nat) : Int) := by
    have exponent : floorLog2 a 1 = a.log2 := by
      have := floorLog2_fraction nonzero 0
      simpa [fraction] using this
    rw [gridExponent, exponent]
    omega
  have split : a.log2 = 52 + (a.log2 - 52) := by omega
  generalize shift : a.log2 - 52 = k at grid split
  rw [split] at low high
  have least : 2 ^ 52 ≤ roundEven a (2 ^ k) := le_roundEven (Nat.two_pow_pos k) (by rwa [← Nat.pow_add])
  have most : roundEven a (2 ^ k) ≤ 2 ^ 53 := roundEven_le (Nat.two_pow_pos k) (by
    rw [← Nat.pow_add, show 53 + k = 52 + k + 1 by omega]
    exact high.le)
  have pattern : nearestBits a 1 = ((k : Int) + 1074).toNat * 2 ^ 52 + roundEven a (2 ^ k) := by
    have mantissa : roundEven (a * 2 ^ (-(k : Int)).toNat) (1 * 2 ^ (k : Int).toNat) = roundEven a (2 ^ k) := by simp
    have finite : ((k : Int) + 1074).toNat * 2 ^ 52 + roundEven a (2 ^ k) ≤ infinityBits := by
      have field : ((k : Int) + 1074).toNat ≤ 1086 := by omega
      simp only [infinityBits]
      omega
    simp only [nearestBits, grid, mantissa]
    exact Nat.min_eq_right finite
  have number : ofInt n = Float.ofBits (UInt64.ofNat ((if decide (n < 0) then 2 ^ 63 else 0)
      + (((k : Int) + 1074).toNat * 2 ^ 52 + roundEven a (2 ^ k)))) := by
    rw [ofInt, nearest, magnitude, if_neg nonzero, pattern]
  obtain below | carry := Nat.lt_or_eq_of_le most
  · exact ⟨_, k, by rw [number]; exact parts_ofPattern ⟨below, by omega, by omega, .inr least⟩, by omega⟩
  · -- a mantissa that was rounded up to the next power of two has one more in its exponent
    have next : ((k : Int) + 1074).toNat * 2 ^ 52 + 2 ^ 53 = (((k + 1 : Nat) : Int) + 1074).toNat * 2 ^ 52 + 2 ^ 52 := by
      omega
    rw [carry, next] at number
    exact ⟨_, (k + 1 : Nat), by rw [number]; exact parts_ofPattern ⟨by decide, by omega, by omega, .inr le_rfl⟩, by omega⟩

end Binary64

namespace Elementary

open Binary64

theorem natAbs_le_of_fits64 {n : Int} (fits : fits64 n = true) : n.natAbs ≤ 2 ^ 63 := by
  have := fits64_iff.1 fits
  omega

/-- The number nearest to a 64-bit integer is an integer. -/
theorem isInteger_ofInt {n : Int} (fits : fits64 n = true) : isInteger (ofInt n) = true := by
  obtain small | large := Nat.lt_or_ge n.natAbs (2 ^ 53)
  · obtain ⟨k, parts⟩ := parts_ofInt_of_small small
    simp [isInteger, parts, fraction]
  · obtain ⟨mantissa, exponent, parts, positive⟩ := parts_ofInt_of_large large (natAbs_le_of_fits64 fits)
    have whole : (-exponent).toNat = 0 := by omega
    simp [isInteger, parts, fraction, whole, Nat.mod_one]

/-- The number nearest to a 64-bit integer is odd if the integer is, and is a number itself. -/
theorem isOddInteger_ofInt {n : Int} (fits : fits64 n = true) :
    isOddInteger (ofInt n) = decide (n % 2 = 1 ∧ n.natAbs < 2 ^ 53) := by
  obtain small | large := Nat.lt_or_ge n.natAbs (2 ^ 53)
  · obtain ⟨k, parts⟩ := parts_ofInt_of_small small
    have odd : n.natAbs % 2 = 1 ↔ n % 2 = 1 ∧ n.natAbs < 2 ^ 53 := by omega
    rw [Bool.eq_iff_iff, decide_eq_true_iff, ← odd]
    simp [isOddInteger, parts, fraction]
  · obtain ⟨mantissa, exponent, parts, positive⟩ := parts_ofInt_of_large large (natAbs_le_of_fits64 fits)
    have whole : (-exponent).toNat = 0 := by omega
    have even : mantissa * 2 ^ exponent.toNat % 2 = 0 := by
      rw [show exponent.toNat = (exponent.toNat - 1) + 1 by omega, Nat.pow_succ, ← Nat.mul_assoc]
      exact Nat.mul_mod_left _ _
    rw [decide_eq_false fun h => Nat.not_lt.2 large h.2]
    simp [isOddInteger, parts, fraction, whole, even]

/-- The number nearest to an integer is below zero if the integer is. -/
theorem ofInt_lt_zero_iff {n : Int} (fits : fits64 n = true) : ofInt n < 0.0 ↔ n < 0 := by
  rw [lt_zero_iff]
  obtain small | large := Nat.lt_or_ge n.natAbs (2 ^ 53)
  · obtain ⟨k, parts⟩ := parts_ofInt_of_small small
    simp [parts, Parts.isBelowZero]
    omega
  · obtain ⟨mantissa, exponent, parts, positive⟩ := parts_ofInt_of_large large (natAbs_le_of_fits64 fits)
    have full := (isCanonical_of_parts parts).full
    simp [parts, Parts.isBelowZero]
    omega

end Elementary

end NamedExpr
