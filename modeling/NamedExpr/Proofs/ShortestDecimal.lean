import NamedExpr.Decimal
import NamedExpr.Proofs.NearestNumber
/-!
# Decimals that read back

The nearest number of a decimal is that of its fraction: the two limits past which the fraction is not
computed change nothing (`nearestBits_eq`). So it depends on the value only, and moving zeros between the
digits and the exponent keeps it (`nearestBits_shift`). The shortest decimal of a number is found by trying,
and the full expansion behind it is exact, so that in either case it reads back (`nearestBits_shortest`).
-/

namespace NamedExpr

namespace Decimal

/-! ## The number of digits -/

theorem lt_pow_length (n : Nat) : n < 10 ^ length n :=
  (Nat.length_toDigits_le_iff (by decide) Nat.length_toDigits_pos).1 (Nat.le_refl _)

theorem pow_length_le {n : Nat} (hn : n ≠ 0) : 10 ^ (length n - 1) ≤ n := by
  by_cases one : length n - 1 = 0
  · rw [one]
    omega
  · have longer : ¬ length n ≤ length n - 1 := by omega
    exact Nat.not_lt.1 fun less =>
      longer ((Nat.length_toDigits_le_iff (by decide) (Nat.pos_of_ne_zero one)).2 less)

theorem length_pos (n : Nat) : 0 < length n := Nat.length_toDigits_pos

/-! ## The value of a decimal -/

theorem fraction_den_pos (d : Decimal) : 0 < d.fraction.2 := by simp [fraction]

theorem fraction_ratio (d : Decimal) :
    (d.fraction.1 : ℚ) / d.fraction.2 = d.digits * (10 : ℚ) ^ d.exponent := by
  rw [Binary64.zpow_eq_div_pow]
  simp only [fraction]
  push_cast
  ring

/-- The value lies below the power of ten that the point stands for. -/
theorem ratio_lt_point (d : Decimal) : (d.fraction.1 : ℚ) / d.fraction.2 < (10 : ℚ) ^ d.point := by
  have digits : (d.digits : ℚ) < 10 ^ length d.digits := by exact_mod_cast lt_pow_length d.digits
  rw [fraction_ratio, point, zpow_add₀ (by norm_num), zpow_natCast]
  exact mul_lt_mul_of_pos_right digits (by positivity)

/-- A value that is not zero reaches the power of ten before the point. -/
theorem point_le_ratio {d : Decimal} (h : d.digits ≠ 0) :
    (10 : ℚ) ^ (d.point - 1) ≤ (d.fraction.1 : ℚ) / d.fraction.2 := by
  have digits : (10 : ℚ) ^ (length d.digits - 1) ≤ d.digits := by exact_mod_cast pow_length_le h
  have exponent : d.point - 1 = ((length d.digits - 1 : Nat) : Int) + d.exponent := by
    have := length_pos d.digits
    rw [point]
    omega
  rw [fraction_ratio, exponent, zpow_add₀ (by norm_num), zpow_natCast]
  exact mul_le_mul_of_nonneg_right digits (by positivity)

/-! ## The nearest number of a decimal -/

theorem two_pow_le_ten_pow : (2 : ℚ) ^ (1024 : Int) ≤ (10 : ℚ) ^ (310 : Int) := by
  have powers : 2 ^ 1024 ≤ 10 ^ 310 := by decide +kernel
  exact_mod_cast powers

theorem ten_pow_neg_le_two_pow : (10 : ℚ) ^ (-331 : Int) ≤ (2 : ℚ) ^ (-1075 : Int) := by
  have powers : 2 ^ 1075 ≤ 10 ^ 331 := by decide +kernel
  rw [zpow_neg, zpow_neg]
  exact inv_anti₀ (by positivity) (by exact_mod_cast powers)

/-- The limits on the position of the point change nothing. -/
theorem nearestBits_eq {d : Decimal} (h : d.digits ≠ 0) :
    d.nearestBits = Binary64.nearestBits d.fraction.1 d.fraction.2 := by
  have hn : d.fraction.1 ≠ 0 := by simp [fraction, h]
  have hd : d.fraction.2 ≠ 0 := (fraction_den_pos d).ne'
  rw [nearestBits, if_neg h]
  split
  · rename_i large
    refine (Binary64.nearestBits_of_large hd ?_).symm
    calc (2 : ℚ) ^ (1024 : Int) ≤ (10 : ℚ) ^ (310 : Int) := two_pow_le_ten_pow
      _ ≤ (10 : ℚ) ^ (d.point - 1) := zpow_le_zpow_right₀ (by norm_num) (by omega)
      _ ≤ _ := point_le_ratio h
  · split
    · rename_i small
      refine (Binary64.nearestBits_of_small hn hd ?_).symm
      calc (d.fraction.1 : ℚ) / d.fraction.2 < (10 : ℚ) ^ d.point := ratio_lt_point d
        _ ≤ (10 : ℚ) ^ (-331 : Int) := zpow_le_zpow_right₀ (by norm_num) (by omega)
        _ ≤ (2 : ℚ) ^ (-1075 : Int) := ten_pow_neg_le_two_pow
    · rfl

/-- Zeros may move from the exponent to the digits. -/
theorem nearestBits_shift (n k : Nat) (e : Int) :
    nearestBits ⟨n * 10 ^ k, e - k⟩ = nearestBits ⟨n, e⟩ := by
  by_cases hn : n = 0
  · simp [nearestBits, hn]
  · rw [nearestBits_eq (by simp [hn]), nearestBits_eq (by simpa using hn)]
    refine Binary64.nearestBits_congr (by simp [fraction, hn]) (fraction_den_pos _) (fraction_den_pos _) ?_
    simp only [fraction]
    calc n * 10 ^ k * 10 ^ (e - k).toNat * 10 ^ (-e).toNat
        = n * 10 ^ (k + (e - k).toNat + (-e).toNat) := by rw [Nat.pow_add, Nat.pow_add]; ring
      _ = n * 10 ^ (e.toNat + (-(e - k)).toNat) := by congr 2; omega
      _ = n * 10 ^ e.toNat * 10 ^ (-(e - k)).toNat := by rw [Nat.pow_add]; ring

theorem nearestBits_dropZeros (count : Nat) (d : Decimal) :
    nearestBits (dropZeros count d) = nearestBits d := by
  fun_induction dropZeros count d with
  | case1 => rfl
  | case2 count d ends ih =>
    have whole : d.digits / 10 * 10 ^ 1 = d.digits := by omega
    rw [ih, ← nearestBits_shift _ 1, whole]
    simp
  | case3 => rfl

theorem nearestBits_normalized (d : Decimal) : nearestBits d.normalized = nearestBits d :=
  nearestBits_dropZeros _ _

/-- The decimal expansion of a number has the value of the number. -/
theorem nearestBits_exact {mantissa : Nat} (hm : mantissa ≠ 0) (exponent : Int) :
    nearestBits (exact mantissa exponent)
      = Binary64.nearestBits (Binary64.fraction mantissa exponent).1 (Binary64.fraction mantissa exponent).2 := by
  have digits : (exact mantissa exponent).digits ≠ 0 := by simp [exact, hm]
  rw [nearestBits_eq digits]
  refine Binary64.nearestBits_congr (by simp [fraction, exact, hm]) (fraction_den_pos _)
    (Binary64.fraction_den_pos _ _) ?_
  have ten : (10 : Nat) ^ (-min exponent 0).toNat = 2 ^ (-exponent).toNat * 5 ^ (-exponent).toNat := by
    rw [← Nat.mul_pow]
    congr 1
    omega
  have none : (min exponent 0).toNat = 0 := by omega
  simp only [fraction, exact, Binary64.fraction, ten, none]
  ring

/-! ## The shortest decimal -/

theorem nearestBits_of_firstOnGrids {bits num den count : Nat} {exponent : Int} {d : Decimal}
    (found : firstOnGrids bits num den count exponent = some d) : nearestBits d = bits := by
  induction count generalizing exponent with
  | zero => simp [firstOnGrids] at found
  | succ count ih =>
    rw [firstOnGrids] at found
    split at found
    · rename_i first hit
      cases found
      simpa using List.find?_some hit
    · exact ih found

/-- The shortest decimal of a number reads back as the number. -/
theorem nearestBits_shortest {mantissa : Nat} (hm : mantissa ≠ 0) (exponent : Int) :
    nearestBits (shortest mantissa exponent)
      = Binary64.nearestBits (Binary64.fraction mantissa exponent).1 (Binary64.fraction mantissa exponent).2 := by
  have hn : (Binary64.fraction mantissa exponent).1 ≠ 0 := by simp [Binary64.fraction, hm]
  simp only [shortest]
  rw [if_neg hn]
  cases found : firstOnGrids (Binary64.nearestBits (Binary64.fraction mantissa exponent).1
      (Binary64.fraction mantissa exponent).2) (Binary64.fraction mantissa exponent).1
      (Binary64.fraction mantissa exponent).2 17
      (floorLog10 (Binary64.fraction mantissa exponent).1 (Binary64.fraction mantissa exponent).2) with
  | some d => exact nearestBits_of_firstOnGrids found
  | none => rw [Option.getD_none, nearestBits_normalized, nearestBits_exact hm]

end Decimal

end NamedExpr
