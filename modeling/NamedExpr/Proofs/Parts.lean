import NamedExpr.Proofs.NearestNumber
/-!
# Numbers and their parts

A number is determined by its parts, and the parts of a finite number are a mantissa and an exponent that are
canonical (`Binary64.IsCanonical`). Every canonical pair is that of a number (`Binary64.parts_ofParts`), so what an
operation on numbers does is known from what it does to their parts (`Binary64.parts_pack`): negation and the
magnitude change the sign, whatever the number is.
-/

namespace NamedExpr

-- Powers are those of the core library, also beside modules that bring others.
attribute [local instance (high)] instPowNat

open Float.Model Float.Model.UnpackedFloat

namespace Binary64

/-- A mantissa and an exponent as finite numbers have them. -/
structure IsCanonical (mantissa : Nat) (exponent : Int) : Prop where
  below : mantissa < 2 ^ 53
  least : -1074 ≤ exponent
  most : exponent ≤ 971
  full : exponent = -1074 ∨ 2 ^ 52 ≤ mantissa

theorem isCanonical_zero : IsCanonical 0 (-1074) := ⟨by decide, by decide, by decide, .inl rfl⟩

theorem isCanonical_of_parts {x : Float} {negative : Bool} {mantissa : Nat} {exponent : Int}
    (h : parts x = .finite negative mantissa exponent) : IsCanonical mantissa exponent := by
  have bound : x.toBits.toNat % 2 ^ 63 < 2 ^ 63 := Nat.mod_lt _ (by decide)
  simp only [parts] at h
  generalize x.toBits.toNat % 2 ^ 63 = bits at h bound
  split at h
  · split at h <;> simp at h
  · split at h
    · simp only [Parts.finite.injEq] at h
      obtain ⟨-, rfl, rfl⟩ := h
      exact ⟨by omega, by omega, by omega, .inl rfl⟩
    · simp only [Parts.finite.injEq] at h
      obtain ⟨-, rfl, rfl⟩ := h
      exact ⟨by omega, by omega, by omega, .inr (by omega)⟩

/-- The pattern of a canonical magnitude. -/
theorem nearestBits_of_isCanonical {mantissa : Nat} {exponent : Int} (h : IsCanonical mantissa exponent)
    (hm : mantissa ≠ 0) :
    nearestBits (fraction mantissa exponent).1 (fraction mantissa exponent).2
      = (exponent + 1074).toNat * 2 ^ 52 + mantissa := by
  obtain ⟨below, least, most, full⟩ := h
  by_cases small : mantissa < 2 ^ 52
  · obtain rfl : exponent = -1074 := full.resolve_right (by omega)
    rw [nearestBits_subnormal hm small]
    omega
  · exact nearestBits_normal (by omega) below least most

/-- What a pattern says if its sign, its exponent and its mantissa are known. -/
theorem parts_ofPattern {negative : Bool} {mantissa : Nat} {exponent : Int} (h : IsCanonical mantissa exponent) :
    parts (Float.ofBits (UInt64.ofNat ((if negative then 2 ^ 63 else 0)
        + ((exponent + 1074).toNat * 2 ^ 52 + mantissa)))) = .finite negative mantissa exponent := by
  obtain ⟨below, least, most, full⟩ := h
  generalize pattern : (exponent + 1074).toNat * 2 ^ 52 + mantissa = magnitude
  have small : magnitude < 2047 * 2 ^ 52 := by omega
  have value : (UInt64.ofNat ((if negative then 2 ^ 63 else 0) + magnitude)).toNat
      = (if negative then 2 ^ 63 else 0) + magnitude := by
    rw [UInt64.toNat_ofNat']
    split <;> omega
  have lower : (UInt64.ofNat ((if negative then 2 ^ 63 else 0) + magnitude)).toNat % 2 ^ 63 = magnitude := by
    rw [value]
    split <;> omega
  have back : (Float.ofBits (UInt64.ofNat ((if negative then 2 ^ 63 else 0) + magnitude))).toBits
      = UInt64.ofNat ((if negative then 2 ^ 63 else 0) + magnitude) :=
    toBits_ofBits (by
      rw [lower]
      exact small.le)
  have sign : isNegative (Float.ofBits (UInt64.ofNat ((if negative then 2 ^ 63 else 0) + magnitude))) = negative := by
    rw [isNegative, back, value]
    cases negative with
    | true => simp
    | false =>
      simp only [Bool.false_eq_true, if_false, Nat.zero_add, decide_eq_false_iff_not]
      omega
  simp only [parts, sign]
  rw [back, lower]
  split
  · omega
  · split
    · rename_i zero
      simp only [Parts.finite.injEq, true_and]
      omega
    · simp only [Parts.finite.injEq, true_and]
      omega

/-- The number nearest to a fraction has the canonical parts of the same value, if there are any. -/
theorem parts_nearest {negative : Bool} {num den mantissa : Nat} {exponent : Int}
    (h : IsCanonical mantissa exponent) (hd : 0 < den)
    (same : num * (fraction mantissa exponent).2 = (fraction mantissa exponent).1 * den) :
    parts (nearest negative num den) = .finite negative mantissa exponent := by
  have pattern : (if num = 0 then 0 else nearestBits num den) = (exponent + 1074).toNat * 2 ^ 52 + mantissa := by
    by_cases hm : mantissa = 0
    · obtain rfl : exponent = -1074 := h.full.resolve_right (by omega)
      have zero : (fraction 0 (-1074)).1 = 0 := Nat.zero_mul _
      rw [hm, zero, Nat.zero_mul] at same
      have none : num = 0 := (Nat.mul_eq_zero.1 same).resolve_right (fraction_den_pos 0 (-1074)).ne'
      rw [if_pos none, hm]
      rfl
    · have some : num ≠ 0 := by
        rintro rfl
        rw [Nat.zero_mul, eq_comm, Nat.mul_eq_zero] at same
        simp only [fraction, Nat.mul_eq_zero, hm, false_or] at same
        obtain zero | zero := same
        · exact absurd zero (Nat.two_pow_pos _).ne'
        · omega
      rw [if_neg some, nearestBits_congr some hd (fraction_den_pos mantissa exponent) same,
        nearestBits_of_isCanonical h hm]
  rw [nearest, pattern]
  exact parts_ofPattern h

/-- Every canonical pair consists of the parts of a number. -/
theorem parts_ofParts {negative : Bool} {mantissa : Nat} {exponent : Int} (h : IsCanonical mantissa exponent) :
    parts (ofParts negative mantissa exponent) = .finite negative mantissa exponent :=
  parts_nearest h (fraction_den_pos mantissa exponent) rfl

end Binary64

namespace Parts

@[simp]
theorem sign_false_apply (n : Int) : (sign false).apply n = n := rfl

@[simp]
theorem sign_true_apply (n : Int) : (sign true).apply n = -n := rfl

/-- The parts of a number may be these. -/
def IsCanonical : Parts → Prop
  | .finite _ mantissa exponent => Binary64.IsCanonical mantissa exponent
  | _ => True

/-- The parts of the number with the other sign. -/
def neg : Parts → Parts
  | .notANumber => .notANumber
  | .infinite negative => .infinite !negative
  | .finite negative mantissa exponent => .finite (!negative) mantissa exponent

/-- The parts of the magnitude. -/
def abs : Parts → Parts
  | .notANumber => .notANumber
  | .infinite _ => .infinite false
  | .finite _ mantissa exponent => .finite false mantissa exponent

/-- The sign of a number; what is no number counts as positive. -/
def isNegative : Parts → Bool
  | .notANumber => false
  | .infinite negative => negative
  | .finite negative .. => negative

/-- Whether the parts are those of a zero, of either sign. -/
def isZero : Parts → Bool
  | .finite _ mantissa _ => mantissa == 0
  | _ => false

/-- Whether the parts are those of a number below zero. -/
def isBelowZero : Parts → Bool
  | .notANumber => false
  | .infinite negative => negative
  | .finite negative mantissa _ => negative && mantissa != 0

theorem isCanonical_neg {p : Parts} (h : p.IsCanonical) : p.neg.IsCanonical := by
  cases p <;> exact h

theorem isCanonical_abs {p : Parts} (h : p.IsCanonical) : p.abs.IsCanonical := by
  cases p <;> exact h

theorem neg_neg (p : Parts) : p.neg.neg = p := by
  cases p <;> simp [neg]

theorem unpacked_neg (p : Parts) : p.neg.unpacked = p.unpacked.neg := by
  cases p with
  | notANumber => rfl
  | infinite negative => cases negative <;> rfl
  | finite negative mantissa exponent =>
    simp only [neg, unpacked]
    split <;> cases negative <;> rfl

theorem unpacked_abs (p : Parts) : p.abs.unpacked = p.unpacked.abs := by
  cases p with
  | notANumber => rfl
  | infinite negative => rfl
  | finite negative mantissa exponent =>
    simp only [abs, unpacked]
    split <;> rfl

/-- A number compares with zero by its sign, if it is no zero itself. -/
theorem compare_zero (p : Parts) : p.unpacked.compare (.zero .positive)
    = if p = .notANumber then none else some (if p.isZero then .eq else if p.isNegative then .lt else .gt) := by
  cases p with
  | notANumber => rfl
  | infinite negative => cases negative <;> rfl
  | finite negative mantissa exponent =>
    rw [if_neg Parts.noConfusion, unpacked]
    split
    · rename_i positive
      rw [isZero, beq_eq_false_iff_ne.2 positive.ne']
      cases negative <;> rfl
    · rename_i zero
      rw [Nat.eq_zero_of_not_pos zero]
      rfl

end Parts

namespace Binary64

theorem isCanonical_parts (x : Float) : (parts x).IsCanonical := by
  cases h : parts x with
  | finite => exact isCanonical_of_parts h
  | notANumber | infinite => trivial

/-- Numbers with the same parts are the same. -/
theorem eq_of_parts {x y : Float} (same : parts x = parts y) : x = y :=
  unpack_injective (by rw [unpack_eq, unpack_eq, same])

/-- There is a number with these parts. -/
theorem exists_parts_eq {p : Parts} (h : p.IsCanonical) : ∃ x, parts x = p := by
  cases p with
  | notANumber => exact ⟨notANumber, by decide⟩
  | infinite negative => exact ⟨if negative then -infinity else infinity, by cases negative <;> decide⟩
  | finite negative mantissa exponent => exact ⟨_, parts_ofParts h⟩

/-- What the arithmetic on numbers puts together from canonical parts has these parts. -/
theorem parts_pack {p : Parts} (h : p.IsCanonical) : parts (.ofModel (Float.Model.pack p.unpacked)) = p := by
  obtain ⟨x, rfl⟩ := exists_parts_eq h
  rw [← unpack_eq, pack_unpack_model]

@[simp]
theorem parts_neg (x : Float) : parts (-x) = (parts x).neg := by
  show parts (.ofModel (Float.Model.pack x.toModel.unpack.neg)) = _
  rw [unpack_eq, ← Parts.unpacked_neg]
  exact parts_pack (Parts.isCanonical_neg (isCanonical_parts x))

@[simp]
theorem parts_abs (x : Float) : parts x.abs = (parts x).abs := by
  show parts (.ofModel (Float.Model.pack x.toModel.unpack.abs)) = _
  rw [unpack_eq, ← Parts.unpacked_abs]
  exact parts_pack (Parts.isCanonical_abs (isCanonical_parts x))

theorem neg_neg (x : Float) : - -x = x := eq_of_parts (by simp [Parts.neg_neg])

/-! ## Signs and zeros -/

theorem parts_ne_notANumber {x : Float} (number : x.isNaN = false) : parts x ≠ .notANumber := fun none => by
  rw [isNaN_iff.2 none] at number
  cases number

/-- The sign bit of what is a number is its sign. -/
theorem isNegative_eq {x : Float} (number : x.isNaN = false) : isNegative x = (parts x).isNegative := by
  cases h : parts x with
  | notANumber => exact absurd h (parts_ne_notANumber number)
  | infinite negative => exact (bits_of_infinite h).1.symm
  | finite => exact (bits_of_parts h).1.symm

theorem isNaN_neg (x : Float) : (-x).isNaN = x.isNaN := by
  rw [Bool.eq_iff_iff, isNaN_iff, isNaN_iff, parts_neg]
  cases parts x <;> simp [Parts.neg]

theorem isNegative_neg {x : Float} (number : x.isNaN = false) : isNegative (-x) = !isNegative x := by
  rw [isNegative_eq number, isNegative_eq ((isNaN_neg x).trans number), parts_neg]
  cases h : parts x with
  | notANumber => exact absurd h (parts_ne_notANumber number)
  | infinite | finite => rfl

/-- The magnitude of a number is the number, or that with the other sign. -/
theorem abs_eq {x : Float} (number : x.isNaN = false) : x.abs = if isNegative x then -x else x := by
  apply eq_of_parts
  rw [isNegative_eq number, parts_abs]
  cases h : parts x with
  | notANumber => exact absurd h (parts_ne_notANumber number)
  | infinite negative | finite negative => cases negative <;> simp [Parts.isNegative, Parts.abs, Parts.neg, h]

theorem abs_neg (x : Float) : (-x).abs = x.abs :=
  eq_of_parts (by
    rw [parts_abs, parts_abs, parts_neg]
    cases parts x <;> rfl)

theorem beq_zero_iff {x : Float} : (x == 0.0) = true ↔ (parts x).isZero = true := by
  show (x.toModel.unpack.compare (.zero .positive) == some .eq) = true ↔ _
  rw [unpack_eq, Parts.compare_zero]
  cases parts x with
  | notANumber => decide
  | infinite negative => cases negative <;> decide
  | finite negative mantissa exponent =>
    cases negative <;> cases zero : mantissa == 0 <;> simp [Parts.isZero, Parts.isNegative, zero]

theorem lt_iff {x y : Float} : x < y ↔ (parts x).unpacked.compare (parts y).unpacked = some .lt := by
  rw [← unpack_eq, ← unpack_eq]
  show decide ((x.toModel.unpack.compare y.toModel.unpack == some .lt) = true) = true ↔ _
  rw [decide_eq_true_iff, beq_iff_eq]

theorem lt_zero_iff {x : Float} : x < 0.0 ↔ (parts x).isBelowZero = true := by
  rw [lt_iff, show (parts 0.0).unpacked = .zero .positive from rfl, Parts.compare_zero]
  cases parts x with
  | notANumber => decide
  | infinite negative => cases negative <;> decide
  | finite negative mantissa exponent =>
    cases negative <;> cases zero : mantissa == 0 <;>
      simp [Parts.isZero, Parts.isNegative, Parts.isBelowZero, zero, bne]

theorem isFinite_iff {x : Float} :
    x.isFinite = true ↔ ∃ negative mantissa exponent, parts x = .finite negative mantissa exponent := by
  show x.toModel.unpack.isFinite = true ↔ _
  rw [unpack_eq]
  cases parts x with
  | notANumber | infinite => simp [Parts.unpacked, UnpackedFloat.isFinite]
  | finite negative mantissa exponent =>
    rw [Parts.unpacked]
    split <;> simp [UnpackedFloat.isFinite]

theorem isFinite_neg (x : Float) : (-x).isFinite = x.isFinite := by
  show (-x).toModel.unpack.isFinite = x.toModel.unpack.isFinite
  rw [unpack_eq, unpack_eq, parts_neg, Parts.unpacked_neg]
  cases (parts x).unpacked <;> rfl

theorem neg_beq_zero (x : Float) : (-x == 0.0) = (x == 0.0) := by
  rw [Bool.eq_iff_iff, beq_zero_iff, beq_zero_iff, parts_neg]
  cases parts x <;> rfl

/-- Of a number that is no zero and its negation, one is below zero. -/
theorem neg_lt_zero_iff {x : Float} (number : x.isNaN = false) (nonzero : (x == 0.0) = false) :
    -x < 0.0 ↔ ¬x < 0.0 := by
  have filled : (parts x).isZero = false := Bool.eq_false_iff.2 fun zero => by
    rw [beq_zero_iff.2 zero] at nonzero
    cases nonzero
  rw [lt_zero_iff, lt_zero_iff, parts_neg]
  cases h : parts x with
  | notANumber => exact absurd h (parts_ne_notANumber number)
  | infinite negative => cases negative <;> simp [Parts.neg, Parts.isBelowZero]
  | finite negative mantissa exponent =>
    rw [h] at filled
    have some : mantissa ≠ 0 := by simpa [Parts.isZero] using filled
    cases negative <;> simp [Parts.neg, Parts.isBelowZero, some]

theorem neg_notANumber : -notANumber = notANumber := eq_of_parts (by decide)

end Binary64

end NamedExpr
