import NamedExpr.Proofs.Pattern
/-!
# The nearest binary64 number

`nearestBits` rounds a fraction that is given by a numerator and a denominator. It depends on nothing but
their ratio (`nearestBits_congr`), because the exponent of the ratio is its logarithm
(`floorLog2_eq_log`) and rounding does not see a common factor. A number that is a binary64 number already
is its own nearest one (`nearest_of_parts`), so taking a number apart loses nothing.
-/

namespace NamedExpr

namespace Binary64

/-- A power with an integer exponent, as the fraction that it is written with in this library. -/
theorem zpow_eq_div_pow (b : ℚ) (e : Int) : b ^ e = b ^ e.toNat / b ^ (-e).toNat := by
  rcases Int.le_total 0 e with h | h
  · obtain ⟨n, rfl⟩ := Int.eq_ofNat_of_zero_le h
    simp
  · obtain ⟨n, hn⟩ := Int.eq_ofNat_of_zero_le (Int.neg_nonneg_of_nonpos h)
    obtain rfl : e = -(n : Int) := by omega
    simp

/-- Comparing a power of two with a ratio, without division. -/
theorem pow_le_ratio_iff {num den : Nat} (hd : den ≠ 0) (e : Int) :
    den * 2 ^ e.toNat ≤ num * 2 ^ (-e).toNat ↔ (2 : ℚ) ^ e ≤ (num : ℚ) / den := by
  have pd : (0 : ℚ) < den := by exact_mod_cast Nat.pos_of_ne_zero hd
  rw [zpow_eq_div_pow, div_le_div_iff₀ (by positivity) pd]
  constructor
  · intro h
    have cast : ((den * 2 ^ e.toNat : Nat) : ℚ) ≤ ((num * 2 ^ (-e).toNat : Nat) : ℚ) := by exact_mod_cast h
    push_cast at cast
    linarith
  · intro h
    have cast : ((den * 2 ^ e.toNat : Nat) : ℚ) ≤ ((num * 2 ^ (-e).toNat : Nat) : ℚ) := by
      push_cast
      linarith
    exact_mod_cast cast

theorem log_eq_of_bounds {q : ℚ} {e : Int} (low : (2 : ℚ) ^ e ≤ q) (high : q < (2 : ℚ) ^ (e + 1)) :
    Int.log 2 q = e := by
  have pq : 0 < q := lt_of_lt_of_le (by positivity) low
  have least := (Int.zpow_le_iff_le_log (b := 2) (by decide) pq (x := e)).1 (by exact_mod_cast low)
  have greatest := (Int.lt_zpow_iff_log_lt (b := 2) (by decide) pq (x := e + 1)).1 (by exact_mod_cast high)
  omega

/-- The exponent of a ratio is its logarithm to the base two. -/
theorem floorLog2_eq_log {num den : Nat} (hn : num ≠ 0) (hd : den ≠ 0) :
    floorLog2 num den = Int.log 2 ((num : ℚ) / den) := by
  have pd : (0 : ℚ) < den := by exact_mod_cast Nat.pos_of_ne_zero hd
  have numLow : (2 : ℚ) ^ num.log2 ≤ num := by exact_mod_cast Nat.log2_self_le hn
  have numHigh : (num : ℚ) < 2 ^ (num.log2 + 1) := by exact_mod_cast Nat.lt_log2_self
  have denLow : (2 : ℚ) ^ den.log2 ≤ den := by exact_mod_cast Nat.log2_self_le hd
  have denHigh : (den : ℚ) < 2 ^ (den.log2 + 1) := by exact_mod_cast Nat.lt_log2_self
  -- the logarithms of the two numbers give the exponent of the ratio up to one
  have low : (2 : ℚ) ^ ((num.log2 : Int) - den.log2 - 1) ≤ (num : ℚ) / den := by
    rw [sub_sub, zpow_sub₀ two_ne_zero, zpow_natCast]
    rw [show ((den.log2 : Int) + 1) = ((den.log2 + 1 : Nat) : Int) by push_cast; rfl, zpow_natCast]
    exact div_le_div₀ (by positivity) numLow pd denHigh.le
  have high : (num : ℚ) / den < (2 : ℚ) ^ ((num.log2 : Int) - den.log2 + 1) := by
    rw [show ((num.log2 : Int) - den.log2 + 1) = ((num.log2 + 1 : Nat) : Int) - den.log2 by push_cast; ring,
      zpow_sub₀ two_ne_zero, zpow_natCast, zpow_natCast]
    exact div_lt_div₀ numHigh denLow (by positivity) (by positivity)
  rw [floorLog2]
  symm
  split
  · rename_i le
    exact log_eq_of_bounds ((pow_le_ratio_iff hd _).1 le) high
  · rename_i gt
    refine log_eq_of_bounds low ?_
    rw [sub_add_cancel]
    exact not_le.1 fun le => gt ((pow_le_ratio_iff hd _).2 le)

theorem ratio_eq_of_cross {num den num' den' : Nat} (hd : den ≠ 0) (hd' : den' ≠ 0)
    (same : num * den' = num' * den) : (num : ℚ) / den = (num' : ℚ) / den' := by
  have pd : (den : ℚ) ≠ 0 := by exact_mod_cast hd
  have pd' : (den' : ℚ) ≠ 0 := by exact_mod_cast hd'
  rw [div_eq_div_iff pd pd']
  exact_mod_cast same

/-! ## Rounding to a natural number -/

/-- A common factor does not change how a fraction is rounded. -/
theorem roundEven_mul_left {k : Nat} (hk : 0 < k) (num den : Nat) :
    roundEven (k * num) (k * den) = roundEven num den := by
  simp only [roundEven, Nat.mul_div_mul_left _ _ hk, Nat.mul_mod_mul_left]
  have below : 2 * (k * (num % den)) < k * den ↔ 2 * (num % den) < den := by
    rw [Nat.mul_left_comm, Nat.mul_lt_mul_left hk]
  have above : k * den < 2 * (k * (num % den)) ↔ den < 2 * (num % den) := by
    rw [Nat.mul_left_comm, Nat.mul_lt_mul_left hk]
  simp only [below, above]

/-- Fractions of one value round alike. -/
theorem roundEven_congr {num den num' den' : Nat} (hd : 0 < den) (hd' : 0 < den')
    (same : num * den' = num' * den) : roundEven num den = roundEven num' den' := by
  rw [← roundEven_mul_left hd' num den, ← roundEven_mul_left hd num' den', Nat.mul_comm den' num, same,
    Nat.mul_comm den num', Nat.mul_comm den' den]

/-- A whole number rounds to itself. -/
theorem roundEven_mul_self (m : Nat) {den : Nat} (hd : 0 < den) : roundEven (m * den) den = m := by
  simp [roundEven, Nat.mul_div_cancel m hd, hd]

/-- A fraction below one half rounds to zero. -/
theorem roundEven_eq_zero {num den : Nat} (small : 2 * num < den) : roundEven num den = 0 := by
  have less : num < den := by omega
  simp [roundEven, Nat.div_eq_of_lt less, Nat.mod_eq_of_lt less, small]

/-- Rounding never falls below a whole number that the fraction has reached. -/
theorem le_roundEven {m num den : Nat} (hd : 0 < den) (h : m * den ≤ num) : m ≤ roundEven num den := by
  have reached : m ≤ num / den := (Nat.le_div_iff_mul_le hd).2 h
  simp only [roundEven]
  split
  · exact reached
  · split <;> omega

/-! ## Rounding to a binary64 number -/

/-- The pattern of the nearest number depends on the value of the fraction only. -/
theorem nearestBits_congr {num den num' den' : Nat} (hn : num ≠ 0) (hd : 0 < den) (hd' : 0 < den')
    (same : num * den' = num' * den) : nearestBits num den = nearestBits num' den' := by
  have hn' : num' ≠ 0 := by
    rintro rfl
    simp at same
    omega
  have grid : gridExponent num den = gridExponent num' den' := by
    rw [gridExponent, gridExponent, floorLog2_eq_log hn hd.ne', floorLog2_eq_log hn' hd'.ne',
      ratio_eq_of_cross hd.ne' hd'.ne' same]
  simp only [nearestBits, grid]
  congr 2
  apply roundEven_congr (by positivity) (by positivity)
  calc num * 2 ^ (-gridExponent num' den').toNat * (den' * 2 ^ (gridExponent num' den').toNat)
      = num * den' * (2 ^ (-gridExponent num' den').toNat * 2 ^ (gridExponent num' den').toNat) := by ring
    _ = num' * den * (2 ^ (-gridExponent num' den').toNat * 2 ^ (gridExponent num' den').toNat) := by rw [same]
    _ = num' * 2 ^ (-gridExponent num' den').toNat * (den * 2 ^ (gridExponent num' den').toNat) := by ring

/-- Beyond the finite numbers the nearest number is infinity. -/
theorem nearestBits_of_large {num den : Nat} (hd : den ≠ 0) (large : (2 : ℚ) ^ (1024 : Int) ≤ (num : ℚ) / den) :
    nearestBits num den = infinityBits := by
  have pq : (0 : ℚ) < (num : ℚ) / den := lt_of_lt_of_le (by positivity) large
  have hn : num ≠ 0 := by
    rintro rfl
    simp at pq
  have exponent : 1024 ≤ floorLog2 num den := by
    rw [floorLog2_eq_log hn hd]
    exact (Int.zpow_le_iff_le_log (b := 2) (by decide) pq).1 (by exact_mod_cast large)
  have reached : den * 2 ^ (floorLog2 num den).toNat ≤ num * 2 ^ (-floorLog2 num den).toNat := by
    rw [pow_le_ratio_iff hd, floorLog2_eq_log hn hd]
    exact_mod_cast Int.zpow_log_le_self (b := 2) (by decide) pq
  have grid : gridExponent num den = floorLog2 num den - 52 := by
    rw [gridExponent]
    omega
  have mantissa : 2 ^ 52 ≤ roundEven (num * 2 ^ (-(floorLog2 num den - 52)).toNat)
      (den * 2 ^ (floorLog2 num den - 52).toNat) := by
    refine le_roundEven (by positivity) ?_
    calc 2 ^ 52 * (den * 2 ^ (floorLog2 num den - 52).toNat)
        = den * 2 ^ (52 + (floorLog2 num den - 52).toNat) := by rw [Nat.pow_add]; ring
      _ = den * 2 ^ (floorLog2 num den).toNat := by congr 2; omega
      _ ≤ num * 2 ^ (-floorLog2 num den).toNat := reached
      _ = num * 2 ^ (-(floorLog2 num den - 52)).toNat := by congr 2; omega
  simp only [nearestBits, grid]
  rw [min_eq_left]
  simp only [infinityBits]
  omega

/-- A ratio below half a step of a grid is rounded to zero there. -/
theorem roundEven_of_ratio_lt {num den : Nat} (hd : den ≠ 0) {grid : Int}
    (small : (num : ℚ) / den < (2 : ℚ) ^ (grid - 1)) :
    roundEven (num * 2 ^ (-grid).toNat) (den * 2 ^ grid.toNat) = 0 := by
  have pd : (0 : ℚ) < den := by exact_mod_cast Nat.pos_of_ne_zero hd
  have less : ((2 * (num * 2 ^ (-grid).toNat) : Nat) : ℚ) < ((den * 2 ^ grid.toNat : Nat) : ℚ) := by
    rw [zpow_sub_one₀ two_ne_zero, zpow_eq_div_pow, div_lt_iff₀ pd] at small
    have scale : (0 : ℚ) < 2 ^ (-grid).toNat := by positivity
    push_cast
    calc 2 * ((num : ℚ) * 2 ^ (-grid).toNat)
        < 2 * ((2 ^ grid.toNat / 2 ^ (-grid).toNat * 2⁻¹ * den) * 2 ^ (-grid).toNat) :=
          mul_lt_mul_of_pos_left (mul_lt_mul_of_pos_right small scale) two_pos
      _ = den * 2 ^ grid.toNat := by field_simp
  exact roundEven_eq_zero (by exact_mod_cast less)

/-- Below half the smallest number the nearest number is zero. -/
theorem nearestBits_of_small {num den : Nat} (hn : num ≠ 0) (hd : den ≠ 0)
    (small : (num : ℚ) / den < (2 : ℚ) ^ (-1075 : Int)) : nearestBits num den = 0 := by
  have pn : (0 : ℚ) < num := by exact_mod_cast Nat.pos_of_ne_zero hn
  have pd : (0 : ℚ) < den := by exact_mod_cast Nat.pos_of_ne_zero hd
  have exponent : floorLog2 num den < -1075 := by
    rw [floorLog2_eq_log hn hd]
    exact (Int.lt_zpow_iff_log_lt (b := 2) (by decide) (by positivity)).1 (by exact_mod_cast small)
  have grid : gridExponent num den = -1074 := by
    rw [gridExponent]
    omega
  simp only [nearestBits]
  rw [roundEven_of_ratio_lt hd (by rw [grid]; exact small), grid]
  rfl

theorem fraction_den_pos (mantissa : Nat) (exponent : Int) : 0 < (fraction mantissa exponent).2 := by
  simp [fraction]

/-- The ratio that a mantissa and an exponent stand for. -/
theorem fraction_ratio (mantissa : Nat) (exponent : Int) :
    ((fraction mantissa exponent).1 : ℚ) / (fraction mantissa exponent).2 = mantissa * (2 : ℚ) ^ exponent := by
  rw [zpow_eq_div_pow]
  simp only [fraction]
  push_cast
  ring

/-- The exponent of a mantissa times a power of two. -/
theorem floorLog2_fraction {mantissa : Nat} (hm : mantissa ≠ 0) (exponent : Int) :
    floorLog2 (fraction mantissa exponent).1 (fraction mantissa exponent).2
      = (mantissa.log2 : Int) + exponent := by
  have hn : (fraction mantissa exponent).1 ≠ 0 := by simp [fraction, hm]
  rw [floorLog2_eq_log hn (fraction_den_pos mantissa exponent).ne', fraction_ratio]
  have low : (2 : ℚ) ^ mantissa.log2 ≤ mantissa := by exact_mod_cast Nat.log2_self_le hm
  have high : (mantissa : ℚ) < 2 ^ (mantissa.log2 + 1) := by exact_mod_cast Nat.lt_log2_self
  apply log_eq_of_bounds
  · rw [zpow_add₀ two_ne_zero, zpow_natCast]
    exact mul_le_mul_of_nonneg_right low (by positivity)
  · rw [show (mantissa.log2 : Int) + exponent + 1 = ((mantissa.log2 + 1 : Nat) : Int) + exponent by
      push_cast; ring, zpow_add₀ two_ne_zero, zpow_natCast]
    exact mul_lt_mul_of_pos_right high (by positivity)

/-- A number on its own grid is not rounded. -/
theorem roundEven_fraction (mantissa : Nat) (exponent : Int) :
    roundEven ((fraction mantissa exponent).1 * 2 ^ (-exponent).toNat)
      ((fraction mantissa exponent).2 * 2 ^ exponent.toNat) = mantissa := by
  have regroup : (fraction mantissa exponent).1 * 2 ^ (-exponent).toNat
      = mantissa * ((fraction mantissa exponent).2 * 2 ^ exponent.toNat) := by
    simp only [fraction]
    ring
  rw [regroup]
  exact roundEven_mul_self _ (by simp [fraction])

/-- A number with a full mantissa is its own nearest number. -/
theorem nearestBits_normal {mantissa : Nat} {exponent : Int} (low : 2 ^ 52 ≤ mantissa)
    (high : mantissa < 2 ^ 53) (least : -1074 ≤ exponent) (most : exponent ≤ 971) :
    nearestBits (fraction mantissa exponent).1 (fraction mantissa exponent).2
      = (exponent + 1074).toNat * 2 ^ 52 + mantissa := by
  have hm : mantissa ≠ 0 := by omega
  have log : mantissa.log2 = 52 := (Nat.log2_eq_iff hm).2 ⟨low, high⟩
  have grid : gridExponent (fraction mantissa exponent).1 (fraction mantissa exponent).2 = exponent := by
    rw [gridExponent, floorLog2_fraction hm, log]
    omega
  simp only [nearestBits, grid, roundEven_fraction]
  rw [min_eq_right]
  simp only [infinityBits]
  omega

/-- A number below the full mantissas is its own nearest number. -/
theorem nearestBits_subnormal {mantissa : Nat} (hm : mantissa ≠ 0) (high : mantissa < 2 ^ 52) :
    nearestBits (fraction mantissa (-1074)).1 (fraction mantissa (-1074)).2 = mantissa := by
  have log : mantissa.log2 < 52 := (Nat.log2_lt hm).2 high
  have grid : gridExponent (fraction mantissa (-1074)).1 (fraction mantissa (-1074)).2 = -1074 := by
    rw [gridExponent, floorLog2_fraction hm]
    omega
  simp only [nearestBits, grid, roundEven_fraction]
  rw [min_eq_right]
  · simp
  · simp only [infinityBits]
    omega

/-! ## Taking a number apart -/

/-- What the pattern of a finite number says of its parts. -/
theorem bits_of_parts {x : Float} {negative : Bool} {mantissa : Nat} {exponent : Int}
    (h : parts x = .finite negative mantissa exponent) :
    negative = isNegative x ∧
      x.toBits.toNat % 2 ^ 63
        = if mantissa = 0 then 0
          else nearestBits (fraction mantissa exponent).1 (fraction mantissa exponent).2 := by
  have bound : x.toBits.toNat % 2 ^ 63 < 2 ^ 63 := Nat.mod_lt _ (by decide)
  simp only [parts] at h
  generalize x.toBits.toNat % 2 ^ 63 = bits at h bound ⊢
  split at h
  · split at h <;> simp at h
  · split at h
    · simp only [Parts.finite.injEq] at h
      obtain ⟨rfl, rfl, rfl⟩ := h
      refine ⟨rfl, ?_⟩
      split
      · omega
      · rename_i nonzero
        rw [nearestBits_subnormal nonzero (by omega)]
        omega
    · simp only [Parts.finite.injEq] at h
      obtain ⟨rfl, rfl, rfl⟩ := h
      refine ⟨rfl, ?_⟩
      rw [if_neg (by omega), nearestBits_normal (by omega) (by omega) (by omega) (by omega)]
      omega

/-- The pattern of an infinite number. -/
theorem bits_of_infinite {x : Float} {negative : Bool} (h : parts x = .infinite negative) :
    negative = isNegative x ∧ x.toBits.toNat % 2 ^ 63 = infinityBits := by
  simp only [parts] at h
  split at h
  · split at h
    · simp only [Parts.infinite.injEq] at h
      refine ⟨h.symm, ?_⟩
      simp only [infinityBits]
      omega
    · simp at h
  · split at h <;> simp at h

/-- The pattern of a number without sign bit is its magnitude. -/
theorem bits_of_not_negative {x : Float} (h : isNegative x = false) :
    x.toBits.toNat % 2 ^ 63 = x.toBits.toNat := by
  simp only [isNegative, decide_eq_false_iff_not] at h
  omega

/-- A finite number is the nearest one to the fraction of its parts. -/
theorem nearest_of_parts {x : Float} {mantissa : Nat} {exponent : Int}
    (h : parts x = .finite false mantissa exponent) (hm : mantissa ≠ 0) :
    Float.ofBits (UInt64.ofNat (nearestBits (fraction mantissa exponent).1 (fraction mantissa exponent).2))
      = x := by
  obtain ⟨sign, bits⟩ := bits_of_parts h
  rw [bits_of_not_negative sign.symm, if_neg hm] at bits
  rw [← bits, UInt64.ofNat_toNat, ofBits_toBits]

/-- A pattern up to infinity is that of a number without sign bit. -/
theorem parts_ofBits {bits : Nat} (h : bits ≤ infinityBits) :
    isNegative (Float.ofBits (UInt64.ofNat bits)) = false ∧
      parts (Float.ofBits (UInt64.ofNat bits)) ≠ .notANumber := by
  have small : (UInt64.ofNat bits).toNat = bits := by
    rw [UInt64.toNat_ofNat']
    simp only [infinityBits] at h
    omega
  have pattern : (Float.ofBits (UInt64.ofNat bits)).toBits = UInt64.ofNat bits :=
    toBits_ofBits (by rw [small]; exact (Nat.mod_le _ _).trans h)
  simp only [infinityBits] at h
  constructor
  · simp only [isNegative, pattern, small, decide_eq_false_iff_not]
    omega
  · simp only [parts, pattern, small]
    split
    · rw [if_pos (by omega)]
      simp
    · split <;> simp

end Binary64

end NamedExpr
