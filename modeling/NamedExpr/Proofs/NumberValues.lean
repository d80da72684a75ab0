import NamedExpr.Proofs.WholeNumbers
/-!
# The values of binary64 numbers

A number that is finite has a value among the rationals (`Binary64.value?`). Integers that are numbers have their own
value, the order of numbers is that of their values, and the difference of two numbers with one exponent has the
difference of their values: it is a multiple of what one unit of the mantissa stands for, and has no more than 53 bits
(`Binary64.value?_normalize`, `Binary64.value?_sub`).
-/

namespace NamedExpr

-- Powers are those of the core library, also beside modules that bring others.
attribute [local instance (high)] instPowNat

open Float.Model Float.Model.UnpackedFloat

namespace Parts

/-- The value of a number with these parts. -/
def value? : Parts → Option ℚ
  | .finite negative mantissa exponent => some (((sign negative).apply mantissa : Int) * (2 : ℚ) ^ exponent)
  | _ => none

end Parts

namespace Binary64

/-- The value of a number that is finite. -/
def value? (x : Float) : Option ℚ := (parts x).value?

theorem value?_eq_none_iff {x : Float} : value? x = none ↔ x.isNaN = true ∨ x.isInf = true := by
  have infinite : x.isInf = (parts x).unpacked.isInf := by
    rw [← unpack_eq]
    rfl
  rw [isNaN_iff, infinite, value?]
  cases parts x with
  | notANumber => simp [Parts.value?]
  | infinite negative => simp [Parts.value?, Parts.unpacked, UnpackedFloat.isInf]
  | finite negative mantissa exponent =>
    rw [Parts.unpacked]
    split <;> simp [Parts.value?, UnpackedFloat.isInf]

theorem value?_neg (x : Float) : value? (-x) = (value? x).map (-·) := by
  rw [value?, value?, parts_neg]
  cases parts x with
  | notANumber | infinite => rfl
  | finite negative mantissa exponent => cases negative <;> simp [Parts.neg, Parts.value?]

/-! ## Order -/

theorem zero_lt_iff {x : Float} {q : ℚ} (value : value? x = some q) : 0.0 < x ↔ 0 < q := by
  rw [lt_iff, show (parts 0.0).unpacked = .zero .positive from rfl]
  rw [value?] at value
  cases h : parts x with
  | notANumber | infinite =>
    rw [h] at value
    cases value
  | finite negative mantissa exponent =>
    rw [h] at value
    obtain rfl := Option.some.inj value
    have unit : (0 : ℚ) < 2 ^ exponent := by positivity
    rw [mul_pos_iff_of_pos_right unit, Int.cast_pos, Parts.unpacked]
    split
    · rename_i positive
      cases negative <;> simp [Parts.sign, Sign.apply, UnpackedFloat.compare, positive]
    · rename_i zero
      cases negative <;> simp [Parts.sign, Sign.apply, UnpackedFloat.compare, Nat.eq_zero_of_not_pos zero]

/-- A canonical magnitude is a half or more if it is not below that of the number `0.5`, by its exponent first. -/
theorem half_le_iff_of_isCanonical {mantissa : Nat} {exponent : Int} (h : IsCanonical mantissa exponent) :
    1 / 2 ≤ (mantissa : ℚ) * 2 ^ exponent ↔ -53 < exponent ∨ exponent = -53 ∧ 2 ^ 52 ≤ mantissa := by
  obtain ⟨below, least, most, full⟩ := h
  obtain small | rfl | large := lt_trichotomy exponent (-53)
  · have bound : (mantissa : ℚ) * 2 ^ exponent < 1 / 2 :=
      calc (mantissa : ℚ) * 2 ^ exponent < 2 ^ 53 * 2 ^ exponent := by
            have : (mantissa : ℚ) < 2 ^ 53 := by exact_mod_cast below
            gcongr
        _ ≤ 2 ^ 53 * 2 ^ (-54 : Int) := by
            gcongr
            · norm_num
            · omega
        _ = 1 / 2 := by norm_num
    constructor
    · intro reached
      exact absurd bound (not_lt.2 reached)
    · omega
  · have unit : (1 / 2 : ℚ) = ((2 ^ 52 : Nat) : ℚ) * 2 ^ (-53 : Int) := by norm_num
    rw [unit, mul_le_mul_iff_of_pos_right (by positivity), Nat.cast_le]
    simp
  · have normal : 2 ^ 52 ≤ mantissa := full.resolve_left (by omega)
    have bound : 1 / 2 ≤ (mantissa : ℚ) * 2 ^ exponent :=
      calc (1 / 2 : ℚ) ≤ 2 ^ 52 * 2 ^ (-52 : Int) := by norm_num
        _ ≤ 2 ^ 52 * 2 ^ exponent := by
            gcongr
            · norm_num
            · omega
        _ ≤ mantissa * 2 ^ exponent := by
            have : (2 ^ 52 : ℚ) ≤ mantissa := by exact_mod_cast normal
            gcongr
    exact ⟨fun _ => .inl large, fun _ => bound⟩

theorem le_iff {x y : Float} : x ≤ y ↔ (parts x).unpacked.le (parts y).unpacked = true := by
  rw [← unpack_eq, ← unpack_eq]
  show decide (x.toModel.unpack.le y.toModel.unpack = true) = true ↔ _
  rw [decide_eq_true_iff]

/-- A magnitude is a half or more if its value is. -/
theorem half_le_abs_iff {x : Float} {q : ℚ} (value : value? x = some q) : 0.5 ≤ x.abs ↔ 1 / 2 ≤ |q| := by
  have half : (parts 0.5).unpacked = .finite .positive (2 ^ 52) (-53) (by decide) := by
    rw [show parts 0.5 = .finite false (2 ^ 52) (-53) by decide +kernel]
    rfl
  rw [le_iff, half, parts_abs]
  rw [value?] at value
  cases h : parts x with
  | notANumber | infinite =>
    rw [h] at value
    cases value
  | finite negative mantissa exponent =>
    have canonical := isCanonical_of_parts h
    rw [h] at value
    obtain rfl := Option.some.inj value
    have magnitude : |(((Parts.sign negative).apply mantissa : Int) : ℚ) * 2 ^ exponent| = mantissa * 2 ^ exponent := by
      rw [abs_mul, abs_of_pos (by positivity : (0 : ℚ) < 2 ^ exponent)]
      cases negative <;> simp
    rw [magnitude, half_le_iff_of_isCanonical canonical, Parts.abs, Parts.unpacked]
    split
    · rename_i positive
      show ((compare (-53) exponent).then (compare (2 ^ 52) mantissa)).isLE = true ↔ _
      obtain small | rfl | large := lt_trichotomy exponent (-53)
      · rw [compare_gt_iff_gt.2 small]
        simp
        omega
      · rw [compare_eq_iff_eq.2 rfl]
        simp [Nat.isLE_compare]
      · rw [compare_lt_iff_lt.2 large]
        simp [large]
    · rename_i zero
      have least : exponent = -1074 := canonical.full.resolve_right (by omega)
      simp [UnpackedFloat.le, UnpackedFloat.compare, least]

/-! ## Differences -/

theorem targetExponent_of_isCanonical {mantissa : Nat} {exponent : Int} (h : IsCanonical mantissa exponent)
    (positive : 0 < mantissa) : Format.binary64.targetExponent (totalExponent mantissa exponent) = exponent := by
  obtain ⟨below, least, most, full⟩ := h
  have low : mantissa.log2 < 53 := (Nat.log2_lt positive.ne').2 below
  show max ((mantissa.log2 : Int) + 1 + exponent - 53) (-1074) = exponent
  obtain subnormal | normal := full
  · omega
  · have high : 52 ≤ mantissa.log2 := (Nat.le_log2 positive.ne').2 normal
    omega

theorem totalExponent_shift {mantissa : Nat} (positive : 0 < mantissa) (exponent : Int) (k : Nat) :
    totalExponent (mantissa * 2 ^ k) (exponent - k) = totalExponent mantissa exponent := by
  have unit : 0 < 2 ^ k := Nat.two_pow_pos k
  have log : (mantissa * 2 ^ k).log2 = mantissa.log2 + k := by
    rw [Nat.log2_eq_iff (Nat.mul_pos positive unit).ne', Nat.pow_add, Nat.add_right_comm, Nat.pow_add _ _ k]
    exact ⟨Nat.mul_le_mul_right _ (Nat.log2_self_le positive.ne'), Nat.mul_lt_mul_of_pos_right Nat.lt_log2_self unit⟩
  rw [totalExponent, totalExponent, log]
  omega

/-- What is canonical is not rounded. -/
theorem roundWithAccuracy_of_isCanonical {mantissa : Nat} {exponent : Int} (h : IsCanonical mantissa exponent)
    (positive : 0 < mantissa) (sign : Sign) :
    roundWithAccuracy Format.binary64 sign mantissa exponent .exact = .finite sign mantissa exponent positive := by
  have kept : shiftToTargetExponent Format.binary64 mantissa exponent .exact = (⟨mantissa, false, false⟩, exponent) := by
    simp [shiftToTargetExponent, targetExponent_of_isCanonical h positive, shiftToExponent,
      HShiftRight.hShiftRight, Nat.repeat, ExtendedMantissa.ofMantissaAndAccuracy]
  have rounded : (ExtendedMantissa.mk mantissa false false).roundedMantissa = mantissa := rfl
  rw [roundWithAccuracy, kept]
  simp only [rounded, kept]
  rw [dif_neg positive.ne']

/-- Rounding moves the bits of a short mantissa until it is canonical. -/
theorem exists_round_eq {mantissa : Nat} {exponent : Int} (positive : 0 < mantissa) (below : mantissa < 2 ^ 53)
    (least : -1074 ≤ exponent) (most : exponent ≤ 971) (negative : Bool) :
    ∃ k : Nat, IsCanonical (mantissa * 2 ^ k) (exponent - k)
      ∧ round Format.binary64 (Parts.sign negative) mantissa exponent
        = (Parts.finite negative (mantissa * 2 ^ k) (exponent - k)).unpacked := by
  obtain ⟨k, canonical⟩ := isCanonical_shift positive below least most
  have positive' : 0 < mantissa * 2 ^ k := Nat.mul_pos positive (Nat.two_pow_pos k)
  have target := targetExponent_of_isCanonical canonical positive'
  rw [totalExponent_shift positive] at target
  have moved : decreaseExponent mantissa exponent (exponent - k) = (mantissa * 2 ^ k, exponent - k) := by
    simp [decreaseExponent, Nat.shiftLeft_eq]
  refine ⟨k, canonical, ?_⟩
  simp only [UnpackedFloat.round, target, moved]
  rw [Parts.unpacked, dif_pos positive']
  exact roundWithAccuracy_of_isCanonical canonical positive' _

theorem normalize_eq_round {mantissa : Int} (nonzero : mantissa ≠ 0) (exponent : Int) (zeroSign : Sign) :
    normalize Format.binary64 mantissa exponent zeroSign
      = UnpackedFloat.round Format.binary64 (Parts.sign (decide (mantissa < 0))) mantissa.natAbs exponent := by
  obtain negative | positive := lt_or_gt_of_ne nonzero
  · have magnitude : (-mantissa).toNat = mantissa.natAbs := by omega
    rw [UnpackedFloat.normalize, compare_lt_iff_lt.2 negative, decide_eq_true negative, magnitude]
    rfl
  · have magnitude : mantissa.toNat = mantissa.natAbs := by omega
    rw [UnpackedFloat.normalize, compare_gt_iff_gt.2 positive, decide_eq_false (by omega), magnitude]
    rfl

theorem value?_pack {p : Parts} (canonical : p.IsCanonical) :
    value? (.ofModel (Float.Model.pack p.unpacked)) = p.value? := by
  rw [value?, parts_pack canonical]

/-- An integer with no more than 53 bits times a power of two is a number. -/
theorem value?_normalize {mantissa : Int} {exponent : Int} (below : mantissa.natAbs < 2 ^ 53) (least : -1074 ≤ exponent)
    (most : exponent ≤ 971) :
    value? (.ofModel (Float.Model.pack (normalize Format.binary64 mantissa exponent .positive)))
      = some (mantissa * (2 : ℚ) ^ exponent) := by
  by_cases zero : mantissa = 0
  · subst zero
    have packed : value? (.ofModel (Float.Model.pack (Parts.finite false 0 (-1074)).unpacked)) = _ :=
      value?_pack isCanonical_zero
    rw [show normalize Format.binary64 0 exponent .positive = (Parts.finite false 0 (-1074)).unpacked from rfl, packed]
    simp [Parts.value?]
  · obtain ⟨k, canonical, rounded⟩ := exists_round_eq (Int.natAbs_pos.2 zero) below least most (decide (mantissa < 0))
    have signed : (Parts.sign (decide (mantissa < 0))).apply (mantissa.natAbs * 2 ^ k : Nat) = mantissa * 2 ^ k := by
      rw [Nat.cast_mul, Int.natCast_natAbs]
      obtain negative | positive := lt_or_gt_of_ne zero
      · rw [decide_eq_true negative, abs_of_neg negative]
        simp
      · rw [decide_eq_false (by omega), abs_of_pos positive]
        simp
    have packed := @value?_pack (.finite (decide (mantissa < 0)) _ _) canonical
    rw [normalize_eq_round zero, rounded, packed, Parts.value?, signed, zpow_sub₀ two_ne_zero, zpow_natCast]
    push_cast
    field_simp

/-- The difference of two numbers with one exponent is exact, if it has no more than 53 bits. -/
theorem value?_sub {x y : Float} {negative negative' : Bool} {mantissa mantissa' : Nat} {exponent : Int}
    (first : parts x = .finite negative mantissa exponent) (second : parts y = .finite negative' mantissa' exponent)
    (positive : 0 < mantissa) (positive' : 0 < mantissa')
    (below : ((Parts.sign negative).apply mantissa - (Parts.sign negative').apply mantissa').natAbs < 2 ^ 53) :
    value? (x - y)
      = some (((Parts.sign negative).apply mantissa - (Parts.sign negative').apply mantissa' : Int) * (2 : ℚ) ^ exponent) := by
  have canonical := isCanonical_of_parts first
  have rounded := value?_normalize below canonical.least canonical.most
  have difference : x - y = .ofModel (Float.Model.pack (normalize Format.binary64
      ((Parts.sign negative).apply mantissa - (Parts.sign negative').apply mantissa') exponent .positive)) := by
    show Float.ofModel (Float.Model.pack (UnpackedFloat.sub Format.binary64 x.toModel.unpack y.toModel.unpack)) = _
    rw [unpack_eq, unpack_eq, first, second, Parts.unpacked, Parts.unpacked, dif_pos positive, dif_pos positive']
    simp [UnpackedFloat.sub, decreaseExponent]
  rw [difference, rounded]

theorem value?_sub_zero {x y : Float} {negative : Bool} {exponent : Int}
    (zero : parts y = .finite negative 0 exponent) : value? (x - y) = value? x := by
  have subtracted : x - y = .ofModel (Float.Model.pack (UnpackedFloat.sub Format.binary64 (parts x).unpacked
      (.zero (Parts.sign negative)))) := by
    show Float.ofModel (Float.Model.pack (UnpackedFloat.sub Format.binary64 x.toModel.unpack y.toModel.unpack)) = _
    rw [unpack_eq, unpack_eq, zero]
    rfl
  rw [subtracted, value?.eq_def x]
  cases h : parts x with
  | notANumber => exact @value?_pack .notANumber trivial
  | infinite sign => exact @value?_pack (.infinite sign) trivial
  | finite sign mantissa exponent =>
    have canonical := isCanonical_of_parts h
    by_cases positive : 0 < mantissa
    · have kept : UnpackedFloat.sub Format.binary64 (Parts.finite sign mantissa exponent).unpacked
          (.zero (Parts.sign negative)) = (Parts.finite sign mantissa exponent).unpacked := by
        rw [Parts.unpacked, dif_pos positive]
        rfl
      rw [kept]
      exact @value?_pack (.finite sign mantissa exponent) canonical
    · obtain rfl := Nat.eq_zero_of_not_pos positive
      have packed (sign : Bool) : value? (.ofModel (Float.Model.pack (Parts.finite sign 0 (-1074)).unpacked)) = some 0 := by
        rw [@value?_pack (.finite sign 0 (-1074)) isCanonical_zero]
        cases sign <;> simp [Parts.value?]
      have none : (Parts.finite sign 0 exponent).value? = some 0 := by
        cases sign <;> simp [Parts.value?]
      have difference : UnpackedFloat.sub Format.binary64 (Parts.finite sign 0 exponent).unpacked
          (.zero (Parts.sign negative)) = (Parts.finite (sign && !negative) 0 (-1074)).unpacked := by
        cases sign <;> cases negative <;> rfl
      rw [difference, packed, none]

end Binary64

end NamedExpr
