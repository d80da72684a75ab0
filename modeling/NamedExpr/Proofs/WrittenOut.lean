import NamedExpr.Proofs.Numeral
/-!
# Decimals written out

A decimal that is spelled with or without a fraction and an exponent (`Word.DecimalText`) is read as itself
(`Word.ofText_eq`). Written out it has no exponent, and no zero at the end of its fraction (`Layout.WrittenOut`): the
zeros after the last place that counts are taken away with the point if nothing else follows it, but a whole number keeps
its zeros, for it has no point (`Layout.trimmed_point`, `Layout.trimmed_of_digits`). The value stays the same throughout
(`Layout.writtenOut_magnitude`).
-/

namespace NamedExpr

open Text

namespace Decimal

/-- The value of a decimal. -/
def value (d : Decimal) : ℚ := d.digits * (10 : ℚ) ^ d.exponent

theorem value_eq_zero_iff (d : Decimal) : d.value = 0 ↔ d.digits = 0 := by
  have unit : (10 : ℚ) ^ d.exponent ≠ 0 := by positivity
  simp [value, unit]

/-- Decimals with one value have one nearest number. -/
theorem nearestBits_of_value_eq {d d' : Decimal} (same : d.value = d'.value) : d.nearestBits = d'.nearestBits := by
  by_cases zero : d.digits = 0
  · have zero' : d'.digits = 0 := by rwa [← value_eq_zero_iff, ← same, value_eq_zero_iff]
    rw [nearestBits, nearestBits, if_pos zero, if_pos zero']
  · have some : d'.digits ≠ 0 := by rwa [Ne, ← value_eq_zero_iff, ← same, value_eq_zero_iff]
    rw [nearestBits_eq zero, nearestBits_eq some]
    have den : (d.fraction.2 : ℚ) ≠ 0 := by exact_mod_cast (fraction_den_pos d).ne'
    have den' : (d'.fraction.2 : ℚ) ≠ 0 := by exact_mod_cast (fraction_den_pos d').ne'
    rw [value, value, ← fraction_ratio, ← fraction_ratio, div_eq_div_iff den den'] at same
    exact Binary64.nearestBits_congr (by simp [fraction, zero]) (fraction_den_pos d) (fraction_den_pos d')
      (by exact_mod_cast same)

end Decimal

namespace Word

/-- A text that spells a decimal: digits, and perhaps a fraction and an exponent. -/
inductive DecimalText : List Char → Decimal → Prop where
  | mk {whole fraction exponent : List Char} (some : whole ≠ []) (ascii : AsciiDigits whole)
      (isFraction : IsFraction fraction) (isExponent : IsExponent exponent) :
      DecimalText (whole ++ fraction ++ exponent) (decimal whole fraction exponent)

theorem FloatText.decimalText {text : List Char} {d : Decimal} (is : FloatText text d) : DecimalText text d := by
  obtain ⟨some, ascii, isFraction, isExponent, -⟩ := is
  exact .mk some ascii isFraction isExponent

/-- A decimal that is spelled is read as itself. -/
theorem ofText_eq {text : List Char} {d : Decimal} (is : DecimalText text d) : Decimal.ofText text = d := by
  obtain ⟨some, ascii, isFraction, isExponent⟩ := is
  rename_i whole fraction exponent
  have whole_eq := takeWhile_digits ascii.isDigitOrGap (takeWhile_parts isFraction isExponent .nil)
  have fraction_eq := fractionPart_append isFraction isExponent .nil
  have exponent_eq := exponentPart_append isExponent .nil
  rw [List.append_nil] at whole_eq fraction_eq exponent_eq
  simp only [Decimal.ofText, List.append_assoc, whole_eq, List.drop_left, fraction_eq, exponent_eq]

end Word

namespace Layout

open Word

/-- A decimal that is written out: digits, or digits on both sides of a point, of which the last one is no zero. -/
inductive WrittenOut : List Char → Prop where
  | whole {digits : List Char} (some : digits ≠ []) (ascii : AsciiDigits digits) : WrittenOut digits
  | point {whole places : List Char} (before : whole ≠ []) (after : places ≠ []) (ascii : AsciiDigits (whole ++ places))
      (last : places.getLast? ≠ some '0') : WrittenOut (whole ++ '.' :: places)

theorem ofText_digits {digits : List Char} (some : digits ≠ []) (ascii : AsciiDigits digits) :
    Decimal.ofText digits = ⟨Nat.ofDigitChars 10 digits 0, 0⟩ := by
  have text : DecimalText (digits ++ [] ++ []) (decimal digits [] []) := .mk some ascii .none .none
  rw [List.append_nil, List.append_nil] at text
  rw [ofText_eq text, decimal_whole _ ascii, exponentValue]

theorem ofText_point {whole places : List Char} (before : whole ≠ []) (after : places ≠ [])
    (ascii : AsciiDigits (whole ++ places)) :
    Decimal.ofText (whole ++ '.' :: places) = ⟨Nat.ofDigitChars 10 (whole ++ places) 0, -(places.length : Int)⟩ :=
  ofText_eq (floatText_point before after ascii rfl rfl).decimalText

/-- Digits that end in none that is zero do not write a multiple of ten. -/
theorem ofDigitChars_mod_ten {digits : List Char} (ascii : AsciiDigits digits) (nonempty : digits ≠ [])
    (last : digits.getLast? ≠ some '0') : Nat.ofDigitChars 10 digits 0 % 10 ≠ 0 := by
  obtain ⟨front, c, rfl⟩ := (List.eq_nil_or_concat' digits).resolve_left nonempty
  have digit := ascii c (by simp)
  have other : c ≠ '0' := by simpa using last
  have value : Nat.ofDigitChars 10 (front ++ [c]) 0 = 10 * Nat.ofDigitChars 10 front 0 + (c.toNat - 48) := by
    rw [Nat.ofDigitChars_append, Nat.ofDigitChars_cons, Nat.ofDigitChars_nil]
    rfl
  have range : 48 ≤ c.toNat ∧ c.toNat ≤ 57 := by
    simp only [Char.isDigit, ge_iff_le, Bool.and_eq_true, decide_eq_true_eq, UInt32.le_iff_toNat_le] at digit
    exact digit
  have above : c.toNat ≠ 48 := fun same => other (Char.toNat_inj.1 same)
  omega

/-- A whole number is written out as digits, with all its zeros. -/
theorem digits_of_whole {text : List Char} (is : WrittenOut text) {n : Nat} (value : (Decimal.ofText text).value = n) :
    AsciiDigits text ∧ Nat.ofDigitChars 10 text 0 = n := by
  cases is with
  | whole some ascii =>
    rw [ofText_digits some ascii, Decimal.value, zpow_zero, mul_one] at value
    exact ⟨ascii, by exact_mod_cast value⟩
  | @point whole places before after ascii last =>
    exfalso
    rw [ofText_point before after ascii, Decimal.value, zpow_neg, zpow_natCast, mul_inv_eq_iff_eq_mul₀ (by positivity)] at value
    have multiple : Nat.ofDigitChars 10 (whole ++ places) 0 = n * 10 ^ places.length := by exact_mod_cast value
    have longer : places.length = places.length - 1 + 1 := by
      have := List.length_pos_iff.2 after
      omega
    refine ofDigitChars_mod_ten ascii (by simp [before]) ?_ ?_
    · rwa [List.getLast?_append_of_ne_nil _ after]
    · rw [multiple, longer, Nat.pow_succ, ← Nat.mul_assoc, Nat.mul_mod_left]

/-! ## Zeros at the end -/

/-- Digits consist of those up to the last that is no zero, and of zeros. -/
theorem exists_eq_append_zeros (digits : List Char) :
    ∃ kept k, digits = kept ++ List.replicate k '0' ∧ kept.getLast? ≠ some '0' := by
  induction digits using List.reverseRecOn with
  | nil => exact ⟨[], 0, rfl, by simp⟩
  | append_singleton digits c ih =>
    by_cases zero : c = '0'
    · obtain ⟨kept, k, rfl, last⟩ := ih
      refine ⟨kept, k + 1, ?_, last⟩
      rw [zero, List.append_assoc, List.replicate_succ']
    · exact ⟨digits ++ [c], 0, by simp, by simpa using zero⟩

theorem point_not_mem {digits : List Char} (ascii : AsciiDigits digits) : '.' ∉ digits := fun member => by
  have := ascii '.' member
  simp at this

/-- Digits without a point stay as they are. -/
theorem trimmed_of_digits {digits : List Char} (ascii : AsciiDigits digits) : trimmed digits = digits :=
  if_neg (point_not_mem ascii)

/-- Behind a point the zeros at the end are taken away, and the point as well if nothing is left behind it. -/
theorem trimmed_point {whole kept : List Char} (k : Nat) (before : whole ≠ []) (ascii : AsciiDigits (whole ++ kept))
    (last : kept.getLast? ≠ some '0') :
    trimmed (whole ++ '.' :: (kept ++ List.replicate k '0')) = if kept = [] then whole else whole ++ '.' :: kept := by
  have backwards : (whole ++ '.' :: (kept ++ List.replicate k '0')).reverse
      = List.replicate k '0' ++ (kept.reverse ++ '.' :: whole.reverse) := by simp
  have zeros : ∀ c ∈ List.replicate k '0', (c == '0') = true := fun c member => by
    rw [List.eq_of_mem_replicate member]
    rfl
  rw [trimmed, if_pos (by simp), backwards, List.dropWhile_append_of_pos zeros]
  obtain rfl | ⟨front, c, rfl⟩ := List.eq_nil_or_concat' kept
  · obtain ⟨front, c, rfl⟩ := (List.eq_nil_or_concat' whole).resolve_left before
    have other : c ≠ '.' := fun h => point_not_mem ascii (by simp [h])
    simp [other]
  · have other : c ≠ '.' := fun h => point_not_mem ascii (by simp [h])
    have some : c ≠ '0' := by simpa using last
    simp [other, some]

theorem value_rescaled (d : Decimal) : (rescaled d).value = d.value := by
  rw [rescaled]
  split
  · rename_i zero
    rw [(Decimal.value_eq_zero_iff d).2 zero.1, Decimal.value_eq_zero_iff]
  · rfl

/-- A decimal that is written out keeps its value. -/
theorem writtenOut_magnitude (d : Decimal) :
    WrittenOut (trimmed (plain.magnitude d)) ∧ (Decimal.ofText (trimmed (plain.magnitude d))).value = d.value := by
  have text : plain.magnitude d = positional false (Nat.toDigits 10 d.digits) d.point := by
    rw [magnitude, if_neg (by simp [plain, writesExponent])]
    rfl
  rw [text]
  obtain ⟨whole, places, before, after, ascii, number, exponent, set⟩ | ⟨whole, k, some, ascii, number, exponent, set⟩ :=
    positional_cases d
  · obtain ⟨kept, k, rfl, last⟩ := exists_eq_append_zeros places
    have ascii' : AsciiDigits (whole ++ kept) := fun c member => ascii c (by
      rw [← List.append_assoc]
      exact List.mem_append_left _ member)
    have shifted : (d.digits : ℚ) = (Nat.ofDigitChars 10 (whole ++ kept) 0 : ℕ) * 10 ^ k := by
      rw [← number, ← List.append_assoc, Nat.ofDigitChars_append, Nat.ofDigitChars_replicate_zero]
      push_cast
      ring
    have value : d.value = (Nat.ofDigitChars 10 (whole ++ kept) 0 : ℕ) * (10 : ℚ) ^ (-(kept.length : Int)) := by
      rw [Decimal.value, shifted, ← exponent, List.length_append, List.length_replicate, Nat.cast_add, neg_add,
        zpow_add₀ (by norm_num), zpow_neg _ (k : Int), zpow_natCast]
      field_simp
    rw [set, trimmed_point k before ascii' last]
    split
    · rename_i none
      subst none
      rw [List.append_nil] at ascii' value
      refine ⟨.whole before ascii', ?_⟩
      rw [ofText_digits before ascii', value]
      rfl
    · rename_i some
      refine ⟨.point before some ascii' last, ?_⟩
      rw [ofText_point before some ascii', value]
      rfl
  · have digits : positional false (Nat.toDigits 10 d.digits) d.point = whole := by simpa using set false
    rw [digits, trimmed_of_digits ascii]
    refine ⟨.whole some ascii, ?_⟩
    rw [ofText_digits some ascii, Decimal.value, Decimal.value, number, ← exponent]
    simp

end Layout

end NamedExpr
