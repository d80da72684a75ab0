import Mathlib
import NamedExpr.Binary64
/-!
# Patterns of binary64 numbers

A `Float` is a 64-bit pattern in which only one pattern stands for what is no number. Reading the pattern of
a number gives the number back (`ofBits_toBits`), and every pattern up to infinity is the pattern of its
number (`toBits_ofBits`). Both come from one fact about the logical model of `Float`: packing undoes
unpacking on valid patterns (`pack_unpack`), with one lemma for each of the two layouts of finite numbers.
What the model unpacks from a number are its parts (`unpack_eq`).
-/

namespace NamedExpr

open Float.Model Float.Model.UnpackedFloat

namespace Parts

/-- The sign of a number. -/
def sign (negative : Bool) : Sign := if negative then .negative else .positive

/-- The number with these parts, taken apart as the arithmetic on numbers takes it. -/
def unpacked : Parts → UnpackedFloat
  | .notANumber => .notANumber
  | .infinite negative => .infinity (sign negative)
  | .finite negative mantissa exponent =>
    if positive : 0 < mantissa then .finite (sign negative) mantissa exponent positive else .zero (sign negative)
end Parts

namespace Binary64

/-- The pattern of a sign, an exponent field and a mantissa field. -/
abbrev assemble (sign : Sign) (exponent : BitVec 11) (mantissa : BitVec 52) : BitVec 64 :=
  packComponents Format.binary64 sign exponent mantissa

/-- A pattern consists of its three fields. -/
theorem assemble_fields (b : BitVec 64) :
    assemble (Sign.ofBitVec (@unpackSign Format.binary64 b))
      (@unpackExponent Format.binary64 b) (@unpackMantissa Format.binary64 b) = b := by
  have sign (v : BitVec 1) : (Sign.ofBitVec v).toBitVec = v := by
    rcases BitVec.eq_zero_or_eq_one v with rfl | rfl <;> rfl
  rw [assemble, packComponents, sign]
  apply BitVec.eq_of_getElem_eq
  intro i hi
  simp only [unpackMantissa, unpackExponent, unpackSign]
  grind

theorem pack_subnormal {sign : Sign} {mantissa : BitVec 52} {m : Nat} {e : Int} (hm : 0 < m)
    (m_eq : m = mantissa.toNat) (e_eq : e = -1074) :
    UnpackedFloat.pack Format.binary64 (.finite sign m e hm) = assemble sign 0#11 mantissa := by
  subst m_eq e_eq
  have short : mantissa.toNat.log2 < 52 := (Nat.log2_lt (Nat.ne_of_gt hm)).2 mantissa.isLt
  have notFull : ¬ mantissa.toNat.log2 + 1 = Format.binary64.mantissaBits := by
    show ¬ mantissa.toNat.log2 + 1 = 53
    omega
  simp only [UnpackedFloat.pack]
  rw [if_neg (by decide), if_neg notFull, BitVec.ofNat_toNat, BitVec.setWidth_eq]

theorem pack_normal {sign : Sign} {exponent : BitVec 11} {mantissa : BitVec 52} {m : Nat} {e : Int}
    (hm : 0 < m) (finite : exponent.toNat < 2047) (m_eq : m = 2 ^ 52 + mantissa.toNat)
    (e_eq : e = (exponent.toNat : Int) - 1075) :
    UnpackedFloat.pack Format.binary64 (.finite sign m e hm) = assemble sign exponent mantissa := by
  subst m_eq e_eq
  have fits := mantissa.isLt
  have full : (2 ^ 52 + mantissa.toNat).log2 + 1 = Format.binary64.mantissaBits := by
    rw [(Nat.log2_eq_iff (k := 52) (by omega)).2 (by omega)]
    rfl
  have field : ((exponent.toNat : Int) - 1075 + Format.binary64.exponentBias
      + Format.binary64.mantissaBitsWithoutImplicit).toNat = exponent.toNat := by
    show ((exponent.toNat : Int) - 1075 + 1023 + 52).toNat = exponent.toNat
    omega
  have implicit : BitVec.ofNat 52 (2 ^ 52 + mantissa.toNat) = mantissa := by
    apply BitVec.eq_of_toNat_eq
    rw [BitVec.toNat_ofNat]
    omega
  simp only [UnpackedFloat.pack, field]
  rw [if_neg (by show ¬ 2048 ≤ exponent.toNat + 1; omega), if_pos full]
  show assemble sign (BitVec.ofNat 11 exponent.toNat) (BitVec.ofNat 52 (2 ^ 52 + mantissa.toNat)) = _
  rw [implicit, BitVec.ofNat_toNat, BitVec.setWidth_eq]

theorem significand_toNat (mantissa : BitVec 52) : (1#1 ++ mantissa).toNat = 2 ^ 52 + mantissa.toNat := by
  rw [BitVec.toNat_append, ← Nat.shiftLeft_add_eq_or_of_lt (BitVec.isLt _)]
  rfl

/-- Taking a valid pattern apart and putting it together again gives it back. -/
theorem pack_unpack {b : BitVec 64} (valid : Format.binary64.Valid b) :
    UnpackedFloat.pack Format.binary64 (UnpackedFloat.unpack Format.binary64 b) = b := by
  have whole := assemble_fields b
  have fits : (@unpackExponent Format.binary64 b).toNat < 2 ^ 11 := BitVec.isLt _
  rw [UnpackedFloat.unpack]
  split
  · rename_i exponent
    split
    · rename_i mantissa
      rwa [exponent, mantissa] at whole
    · rename_i mantissa
      exact (valid.eq_packedNaN exponent mantissa).symm
  · rename_i notAll
    have finite : (@unpackExponent Format.binary64 b).toNat ≠ 2047 := fun e =>
      notAll (BitVec.eq_of_toNat_eq (by rw [e]; rfl))
    split
    · rename_i exponent
      split
      · rename_i mantissa
        rwa [exponent, mantissa] at whole
      · rw [pack_subnormal _ rfl (by rw [exponent]; rfl), ← exponent]
        exact whole
    · exact (pack_normal _ (by omega) (significand_toNat _) rfl).trans whole

theorem pack_unpack_model (m : Float.Model) : Float.Model.pack m.unpack = m := by
  cases m with
  | mk bits valid =>
    have round := pack_unpack valid
    simp only [Float.Model.pack, Float.Model.unpack, round]

/-- A number is the number of its pattern. -/
theorem ofBits_toBits (x : Float) : Float.ofBits x.toBits = x := by
  show Float.ofModel (Float.Model.pack x.toModel.unpack) = x
  rw [pack_unpack_model]

theorem toBits_injective {x y : Float} (same : x.toBits = y.toBits) : x = y := by
  rw [← ofBits_toBits x, ← ofBits_toBits y, same]

theorem unpack_injective {x y : Float} (same : x.toModel.unpack = y.toModel.unpack) : x = y := by
  rw [← ofBits_toBits x, ← ofBits_toBits y]
  show Float.ofModel (Float.Model.pack x.toModel.unpack) = Float.ofModel (Float.Model.pack y.toModel.unpack)
  rw [same]

theorem unpackExponent_toNat (b : BitVec 64) :
    (@unpackExponent Format.binary64 b).toNat = b.toNat / 2 ^ 52 % 2 ^ 11 := by
  simp [unpackExponent, BitVec.extractLsb_toNat, Nat.shiftRight_eq_div_pow]

theorem unpackMantissa_toNat (b : BitVec 64) :
    (@unpackMantissa Format.binary64 b).toNat = b.toNat % 2 ^ 52 := by
  simp [unpackMantissa, BitVec.extractLsb_toNat]

/-- A pattern up to infinity, the sign bit apart, is the pattern of its number. -/
theorem toBits_ofBits {bits : UInt64} (h : bits.toNat % 2 ^ 63 ≤ infinityBits) :
    (Float.ofBits bits).toBits = bits := by
  have valid : Format.binary64.Valid bits.toBitVec := by
    refine ⟨fun exponent mantissa => ?_⟩
    have all := congrArg BitVec.toNat exponent
    rw [unpackExponent_toNat, UInt64.toNat_toBitVec] at all
    have zero : (@unpackMantissa Format.binary64 bits.toBitVec).toNat = 0 := by
      rw [unpackMantissa_toNat, UInt64.toNat_toBitVec]
      simp [infinityBits] at h all
      omega
    exact absurd (BitVec.eq_of_toNat_eq zero) mantissa
  show UInt64.ofBitVec (UnpackedFloat.pack Format.binary64 (UnpackedFloat.unpack Format.binary64 bits.toBitVec)) = bits
  rw [pack_unpack valid]

/-! ## Parts -/

theorem exponentField_toNat (x : Float) :
    (@unpackExponent Format.binary64 x.toModel.toBits.toBitVec).toNat = x.toBits.toNat % 2 ^ 63 / 2 ^ 52 := by
  rw [unpackExponent_toNat]
  show x.toBits.toNat / 2 ^ 52 % 2 ^ 11 = _
  omega

theorem mantissaField_toNat (x : Float) :
    (@unpackMantissa Format.binary64 x.toModel.toBits.toBitVec).toNat = x.toBits.toNat % 2 ^ 63 % 2 ^ 52 := by
  rw [unpackMantissa_toNat]
  show x.toBits.toNat % 2 ^ 52 = _
  omega

theorem signField_eq (x : Float) :
    Sign.ofBitVec (@unpackSign Format.binary64 x.toModel.toBits.toBitVec) = Parts.sign (isNegative x) := by
  have value : (@unpackSign Format.binary64 x.toModel.toBits.toBitVec).toNat = x.toBits.toNat / 2 ^ 63 % 2 := by
    simp [unpackSign, BitVec.extractLsb_toNat, Nat.shiftRight_eq_div_pow]
    rfl
  have bound : x.toBits.toNat < 2 ^ 64 := x.toBits.toNat_lt
  have negative : isNegative x = decide (2 ^ 63 ≤ x.toBits.toNat) := rfl
  obtain zero | one := BitVec.eq_zero_or_eq_one (@unpackSign Format.binary64 x.toModel.toBits.toBitVec)
  · rw [zero] at value ⊢
    have below : ¬2 ^ 63 ≤ x.toBits.toNat := by simp at value; omega
    rw [negative, decide_eq_false below]
    rfl
  · rw [one] at value ⊢
    have above : 2 ^ 63 ≤ x.toBits.toNat := by simp at value; omega
    rw [negative, decide_eq_true above]
    rfl

/-- The arithmetic on numbers takes a number apart into its parts. -/
theorem unpack_eq (x : Float) : x.toModel.unpack = (parts x).unpacked := by
  have differ {n : Nat} {a b : BitVec n} (h : a ≠ b) : a.toNat ≠ b.toNat := mt BitVec.eq_of_toNat_eq h
  show UnpackedFloat.unpack Format.binary64 x.toModel.toBits.toBitVec = _
  simp only [UnpackedFloat.unpack, parts, ← exponentField_toNat, ← mantissaField_toNat, signField_eq]
  split
  · rename_i all
    rw [if_pos (show _ = 2047 from congrArg BitVec.toNat all)]
    split
    · rename_i zero
      rw [if_pos (show _ = 0 from congrArg BitVec.toNat zero)]
      rfl
    · rename_i some
      rw [if_neg (show _ ≠ 0 from differ some)]
      rfl
  · rename_i notAll
    rw [if_neg (show _ ≠ 2047 from differ notAll)]
    split
    · rename_i least
      rw [if_pos (show _ = 0 from congrArg BitVec.toNat least)]
      split
      · rename_i zero
        rw [zero]
        rfl
      · rename_i some
        rw [Parts.unpacked, dif_pos (Nat.pos_of_ne_zero (differ some)), least]
        rfl
    · rename_i normal
      rw [if_neg (show _ ≠ 0 from differ normal), Parts.unpacked, dif_pos (Nat.add_pos_left (by decide) _),
        UnpackedFloat.finite.injEq]
      exact ⟨rfl, significand_toNat _, rfl⟩

/-- A number is none exactly if its parts say so. -/
theorem isNaN_iff {x : Float} : x.isNaN = true ↔ parts x = .notANumber := by
  show x.toModel.unpack.isNaN = true ↔ _
  rw [unpack_eq]
  cases parts x with
  | notANumber | infinite => simp [Parts.unpacked, UnpackedFloat.isNaN]
  | finite =>
    rw [Parts.unpacked]
    split <;> simp [UnpackedFloat.isNaN]

end Binary64

end NamedExpr
