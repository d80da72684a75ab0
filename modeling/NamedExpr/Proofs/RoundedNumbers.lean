import NamedExpr.Proofs.Arguments
import NamedExpr.Proofs.IntegerArithmetic
import NamedExpr.Proofs.NumberValues
/-!
# Rounding to integers

Every rational has one integer that it is rounded to in each direction (`Rounding.Exact`, `Rounding.Exact.unique`). A
binary64 number is rounded to that of its value (`Rounding.exact_toInt?`). In three directions that is integer division;
to the nearest integer the number is cut first, and the difference between the two decides, which is exact: what a number
is cut to is zero, or has the exponent of the number (`Rounding.parts_ofInt_cut`).
-/

namespace NamedExpr

-- Powers are those of the core library, also beside modules that bring others.
attribute [local instance (high)] instPowNat

/-! ## Rounding rationals -/

/-- The exact result of rounding a number to an integer. Of the integers that are nearest to it, the one with the greatest
magnitude is taken. -/
inductive Rounding.Exact (q : ℚ) : Rounding → Int → Prop where
  | trunc : Exact q .trunc (towardZero q)
  | floor : Exact q .floor ⌊q⌋
  | ceil : Exact q .ceil ⌈q⌉
  | round {n : Int} (nearest : ∀ k : Int, |q - n| ≤ |q - k|) (away : ∀ k : Int, |q - k| = |q - n| → |k| ≤ |n|) :
      Exact q .round n

namespace Rounding

theorem exact_round_neg {q : ℚ} {n : Int} (exact : Exact q .round n) : Exact (-q) .round (-n) := by
  obtain ⟨⟩ := exact
  rename_i nearest away
  have turned (k : Int) : |-q - k| = |q - (-k : Int)| := by
    rw [← abs_neg]
    push_cast
    ring_nf
  refine .round (fun k => ?_) fun k same => ?_
  · rw [turned, turned, neg_neg]
    exact nearest (-k)
  · rw [turned, turned, neg_neg] at same
    rw [← abs_neg k, abs_neg n]
    exact away (-k) same

theorem exact_floor_neg {q : ℚ} {n : Int} (exact : Exact q .ceil n) : Exact (-q) .floor (-n) := by
  obtain ⟨⟩ := exact
  rw [← Int.floor_neg]
  exact .floor

/-- Of a number that is not negative, the nearest integer is at most a half above it and less than a half below. -/
theorem exact_round_of_bounds {q : ℚ} {n : Int} (nonneg : 0 ≤ q) (low : n - 1 / 2 ≤ q) (high : q < n + 1 / 2) :
    Exact q .round n := by
  have near : |q - n| ≤ 1 / 2 := abs_le.2 ⟨by linarith, by linarith⟩
  have below {k : Int} (lt : k < n) : 1 / 2 ≤ |q - k| := by
    have : (k : ℚ) ≤ n - 1 := by exact_mod_cast Int.le_sub_one_of_lt lt
    exact le_trans (by linarith) (le_abs_self (q - k))
  have above {k : Int} (gt : n < k) : 1 / 2 < |q - k| := by
    have : (n + 1 : ℚ) ≤ k := by exact_mod_cast gt
    exact lt_of_lt_of_le (by linarith) (neg_le_abs (q - k))
  refine .round (fun k => ?_) fun k same => ?_
  · obtain lt | rfl | gt := lt_trichotomy k n
    · exact near.trans (below lt)
    · exact le_rfl
    · exact near.trans (above gt).le
  · obtain lt | rfl | gt := lt_trichotomy k n
    · have reached : q - k ≤ 1 / 2 := (le_abs_self _).trans (same.trans_le near)
      have bound : ((-1 : Int) : ℚ) < k := by
        push_cast
        linarith
      have : -1 < k := Int.cast_lt.1 bound
      exact abs_le_abs_of_nonneg (by omega) lt.le
    · exact le_rfl
    · exact absurd (same.trans_le near) (above gt).not_ge

theorem exact_round_of_nonneg {q : ℚ} (nonneg : 0 ≤ q) :
    Exact q .round (if 1 / 2 ≤ q - ⌊q⌋ then ⌊q⌋ + 1 else ⌊q⌋) := by
  have low := Int.floor_le q
  have high := Int.lt_floor_add_one q
  split
  · rename_i far
    apply exact_round_of_bounds nonneg <;> push_cast <;> linarith
  · rename_i near
    apply exact_round_of_bounds nonneg <;> linarith

theorem exact_round (q : ℚ) :
    Exact q .round (if 1 / 2 ≤ |q - towardZero q| then (if 0 < q then towardZero q + 1 else towardZero q - 1)
      else towardZero q) := by
  obtain nonneg | negative := le_or_gt 0 q
  · have cut : towardZero q = ⌊q⌋ := if_pos nonneg
    have exact := exact_round_of_nonneg nonneg
    rw [cut, abs_of_nonneg (sub_nonneg.2 (Int.floor_le q))]
    obtain positive | rfl := nonneg.lt_or_eq
    · rwa [if_pos positive]
    · norm_num at exact ⊢
      exact exact
  · have cut : towardZero q = -⌊-q⌋ := by rw [towardZero, if_neg (not_le.2 negative), Int.floor_neg, neg_neg]
    have exact := exact_round_neg (exact_round_of_nonneg (neg_nonneg.2 negative.le))
    have distance : |q - (-⌊-q⌋ : Int)| = -q - ⌊-q⌋ := by
      have := Int.floor_le (-q)
      push_cast
      rw [abs_of_nonpos (by linarith)]
      ring
    rw [neg_neg, apply_ite Neg.neg, neg_add] at exact
    rw [cut, distance, if_neg negative.le.not_gt]
    exact exact

theorem Exact.unique {q : ℚ} {r : Rounding} {m n : Int} (first : r.Exact q m) (second : r.Exact q n) : m = n := by
  cases first with
  | trunc | floor | ceil =>
    cases second
    rfl
  | round nearest away =>
    obtain ⟨⟩ := second
    rename_i nearest' away'
    have same : |q - m| = |q - n| := le_antisymm (nearest n) (nearest' m)
    have magnitude : |m| = |n| := le_antisymm (away' m same) (away n same.symm)
    obtain equal | opposite := abs_eq_abs.1 magnitude
    · exact equal
    · -- numbers with opposite signs are equally near to zero only, which is nearest to itself
      subst opposite
      have zero : (n : ℚ) = 0 := by
        obtain centre | centre := abs_eq_abs.1 same
        · push_cast at centre
          linarith
        · have origin : q = 0 := by
            push_cast at centre
            linarith
          have least := nearest 0
          rw [origin] at least
          simpa using least
      have : n = 0 := Int.cast_eq_zero.1 zero
      omega

theorem existsUnique_exact (r : Rounding) (q : ℚ) : ∃! n, r.Exact q n := by
  have unique {n : Int} (exact : r.Exact q n) : ∃! n, r.Exact q n := ⟨n, exact, fun _ other => other.unique exact⟩
  cases r with
  | trunc => exact unique .trunc
  | floor => exact unique .floor
  | ceil => exact unique .ceil
  | round => exact unique (exact_round q)

/-! ## Rounding numbers -/

open Binary64

/-- The numerator of a number, over the denominator of its magnitude. -/
def numerator (negative : Bool) (mantissa : Nat) (exponent : Int) : Int :=
  (Parts.sign negative).apply (fraction mantissa exponent).1

theorem numerator_ratio (negative : Bool) (mantissa : Nat) (exponent : Int) :
    (numerator negative mantissa exponent : ℚ) / (fraction mantissa exponent).2
      = ((Parts.sign negative).apply mantissa : Int) * (2 : ℚ) ^ exponent := by
  have ratio := fraction_ratio mantissa exponent
  cases negative with
  | false => simpa [numerator] using ratio
  | true => simp [numerator, neg_div, ratio]

/-- A number is cut to its magnitude without what that has after the point, under its sign. -/
theorem cut_numerator (negative : Bool) (mantissa : Nat) (exponent : Int) :
    cut (numerator negative mantissa exponent) (fraction mantissa exponent).2
      = (Parts.sign negative).apply ((fraction mantissa exponent).1 / (fraction mantissa exponent).2 : Nat) := by
  cases negative with
  | false => rfl
  | true => exact Int.neg_tdiv ..

/-- A magnitude of one or more keeps its exponent when it is cut. -/
theorem exists_isCanonical_cut {mantissa : Nat} {exponent : Int} (h : IsCanonical mantissa exponent)
    (whole : (fraction mantissa exponent).1 / (fraction mantissa exponent).2 ≠ 0) :
    ∃ mantissa', IsCanonical mantissa' exponent ∧ mantissa' ≤ mantissa
      ∧ (fraction mantissa exponent).1 / (fraction mantissa exponent).2 * 2 ^ (-exponent).toNat
        = mantissa' * 2 ^ exponent.toNat := by
  obtain ⟨below, least, most, full⟩ := h
  simp only [fraction] at whole ⊢
  obtain nonneg | negative := Int.le_total 0 exponent
  · have none : (-exponent).toNat = 0 := by omega
    exact ⟨mantissa, ⟨below, least, most, full⟩, le_rfl, by simp [none]⟩
  · have none : exponent.toNat = 0 := by omega
    generalize places : (-exponent).toNat = k at whole ⊢
    simp only [none, Nat.pow_zero, Nat.mul_one] at whole ⊢
    have reached : 2 ^ k ≤ mantissa := by
      by_contra less
      exact whole (Nat.div_eq_of_lt (by omega))
    have few : k ≤ 52 := by
      have : 2 ^ k < 2 ^ 53 := by omega
      have := (Nat.pow_lt_pow_iff_right (by decide)).1 this
      omega
    have normal : 2 ^ 52 ≤ mantissa := full.resolve_left (by omega)
    have kept : 2 ^ 52 ≤ mantissa / 2 ^ k * 2 ^ k := by
      rw [show 2 ^ 52 = 2 ^ (52 - k) * 2 ^ k by rw [← Nat.pow_add]; congr 1; omega] at normal ⊢
      exact Nat.mul_le_mul_right _ ((Nat.le_div_iff_mul_le (Nat.two_pow_pos k)).2 normal)
    have le : mantissa / 2 ^ k * 2 ^ k ≤ mantissa := Nat.div_mul_le_self ..
    exact ⟨mantissa / 2 ^ k * 2 ^ k, ⟨by omega, least, most, .inr kept⟩, le, rfl⟩

/-- What a number is cut to is zero, or a number with the same sign and exponent and no greater mantissa. -/
theorem parts_ofInt_cut {mantissa : Nat} {exponent : Int} (h : IsCanonical mantissa exponent) (negative : Bool)
    (nonzero : cut (numerator negative mantissa exponent) (fraction mantissa exponent).2 ≠ 0) :
    ∃ mantissa', 0 < mantissa' ∧ mantissa' ≤ mantissa
      ∧ parts (ofInt (cut (numerator negative mantissa exponent) (fraction mantissa exponent).2))
        = .finite negative mantissa' exponent
      ∧ (cut (numerator negative mantissa exponent) (fraction mantissa exponent).2 : ℚ)
        = ((Parts.sign negative).apply mantissa' : Int) * (2 : ℚ) ^ exponent := by
  rw [cut_numerator] at nonzero ⊢
  have whole : (fraction mantissa exponent).1 / (fraction mantissa exponent).2 ≠ 0 := by
    intro zero
    rw [zero] at nonzero
    cases negative <;> exact nonzero rfl
  obtain ⟨mantissa', canonical, le, same⟩ := exists_isCanonical_cut h whole
  generalize (fraction mantissa exponent).1 / (fraction mantissa exponent).2 = t at nonzero whole same ⊢
  have value : (t : ℚ) = mantissa' * 2 ^ exponent := by
    rw [← fraction_ratio, eq_div_iff (by exact_mod_cast (fraction_den_pos mantissa' exponent).ne')]
    exact_mod_cast same
  have positive : 0 < mantissa' := by
    by_contra zero
    rw [Nat.eq_zero_of_not_pos zero, Nat.zero_mul, Nat.mul_eq_zero] at same
    exact same.elim whole (Nat.two_pow_pos _).ne'
  have magnitude : ((Parts.sign negative).apply t).natAbs = t := by cases negative <;> simp
  have sign : decide ((Parts.sign negative).apply t < 0) = negative := by
    cases negative with
    | false => exact decide_eq_false (Int.natCast_nonneg t).not_gt
    | true => exact decide_eq_true (by rw [Parts.sign_true_apply]; omega)
  refine ⟨mantissa', positive, le, ?_, ?_⟩
  · rw [parts_ofInt canonical (by rwa [magnitude]), sign]
  · cases negative <;> simp [value]

/-- The difference between a number and what it is cut to is exact. -/
theorem value?_sub_cut {x : Float} {negative : Bool} {mantissa : Nat} {exponent : Int}
    (h : parts x = .finite negative mantissa exponent) :
    value? (x - ofInt (cut (numerator negative mantissa exponent) (fraction mantissa exponent).2))
      = some (((Parts.sign negative).apply mantissa : Int) * (2 : ℚ) ^ exponent
        - (cut (numerator negative mantissa exponent) (fraction mantissa exponent).2 : Int)) := by
  by_cases zero : cut (numerator negative mantissa exponent) (fraction mantissa exponent).2 = 0
  · have cutParts : parts (ofInt 0) = .finite false 0 (-1074) := by decide +kernel
    rw [zero, value?_sub_zero cutParts, value?, h, Int.cast_zero, sub_zero]
    rfl
  · have canonical := isCanonical_of_parts h
    obtain ⟨mantissa', positive, le, cutParts, cutValue⟩ := parts_ofInt_cut canonical negative zero
    have below : ((Parts.sign negative).apply mantissa - (Parts.sign negative).apply mantissa').natAbs < 2 ^ 53 := by
      have := canonical.below
      cases negative <;> simp only [Parts.sign_false_apply, Parts.sign_true_apply] <;> omega
    rw [value?_sub h cutParts (by omega) positive below, cutValue]
    push_cast
    rw [sub_mul]

/-- A number is rounded to the integer that its value is rounded to. -/
theorem exact_toInt? {x : Float} {q : ℚ} (value : value? x = some q) (r : Rounding) :
    ∃ n, r.toInt? x = some n ∧ r.Exact q n := by
  cases h : parts x with
  | notANumber | infinite =>
    rw [value?, h] at value
    cases value
  | finite negative mantissa exponent =>
    have difference := value?_sub_cut h
    have ratio : q = (numerator negative mantissa exponent : ℚ) / (fraction mantissa exponent).2 := by
      rw [value?, h] at value
      rw [numerator_ratio]
      exact (Option.some.inj value).symm
    rw [← numerator_ratio, ← ratio] at difference
    have num : (if negative then -((fraction mantissa exponent).1 : Int) else (fraction mantissa exponent).1)
        = numerator negative mantissa exponent := by cases negative <;> rfl
    have toward : cut (numerator negative mantissa exponent) (fraction mantissa exponent).2 = towardZero q := by
      rw [ratio, ← Int.cast_natCast (fraction mantissa exponent).2, towardZero_intCast_div]
      rfl
    have floor (n : Int) : n.fdiv (fraction mantissa exponent).2 = ⌊(n : ℚ) / (fraction mantissa exponent).2⌋ := by
      rw [Int.fdiv_eq_ediv_of_nonneg _ (Int.natCast_nonneg _), Rat.floor_intCast_div_natCast]
    simp only [toInt?, h, num]
    cases r with
    | trunc =>
      refine ⟨_, rfl, ?_⟩
      rw [toward]
      exact .trunc
    | floor =>
      refine ⟨_, rfl, ?_⟩
      rw [floor, ← ratio]
      exact .floor
    | ceil =>
      refine ⟨_, rfl, ?_⟩
      rw [floor, Int.cast_neg, neg_div, ← ratio, Int.floor_neg, Int.neg_neg]
      exact .ceil
    | round =>
      refine ⟨_, rfl, ?_⟩
      rw [toward] at difference ⊢
      have exact := exact_round q
      simp only [nearest, half_le_abs_iff difference, zero_lt_iff value]
      exact exact

/-- The greatest number below a half is nearest to zero, although it makes one together with a half. -/
example : round.toInt? (Float.ofBits 0x3FDFFFFFFFFFFFFF) = some 0 ∧ Float.ofBits 0x3FDFFFFFFFFFFFFF + 0.5 = 1.0 := by
  decide +kernel

end Rounding

namespace Method

open Binary64

/-- The call of the method that rounds in a direction. -/
def callRounding (r : Rounding) (x : Float) (optional : Bool) : Except Failure Resolved :=
  callDeferred r.name (some ⟨.float x, optional⟩) []

theorem callRounding_eq (r : Rounding) (x : Float) (optional : Bool) :
    callRounding r x optional = (NumericMethod.roundTo r (.float x)).map fun v => ⟨v, false⟩ := by
  cases r <;> rw [callRounding, callDeferred_of_settled rfl] <;> rfl

theorem callRounding_of_none {x : Float} (none : value? x = none) (r : Rounding) (optional : Bool) :
    callRounding r x optional = .error (.noIntegerValue r.name x) := by
  have unrounded : r.toInt? x = .none := by
    rw [value?] at none
    rw [Rounding.toInt?]
    cases h : parts x with
    | notANumber | infinite => rfl
    | finite =>
      rw [h] at none
      cases none
  rw [callRounding_eq]
  simp only [NumericMethod.roundTo, unrounded]
  rfl

theorem callRounding_of_value {r : Rounding} {x : Float} {q : ℚ} {n : Int} (value : value? x = some q)
    (exact : r.Exact q n) (optional : Bool) :
    callRounding r x optional = if fits64 n then .ok ⟨.int n, false⟩ else .error (.roundedOutOfRange r.name n) := by
  obtain ⟨n', rounded, exact'⟩ := Rounding.exact_toInt? value r
  obtain rfl := exact.unique exact'
  rw [callRounding_eq]
  simp only [NumericMethod.roundTo, rounded]
  cases fits : fits64 n with
  | true => simp [Value.ofInt, fits, Except.map]
  | false => rfl

theorem callRounding_eq_ok_iff {r : Rounding} {x : Float} {optional : Bool} {result : Resolved} :
    callRounding r x optional = .ok result
      ↔ ∃ q n, value? x = some q ∧ r.Exact q n ∧ fits64 n = true ∧ result = ⟨.int n, false⟩ := by
  constructor
  · intro ok
    cases value : value? x with
    | none =>
      rw [callRounding_of_none value] at ok
      cases ok
    | some q =>
      obtain ⟨n, -, exact⟩ := Rounding.exact_toInt? value r
      rw [callRounding_of_value value exact] at ok
      split at ok
      · rename_i fits
        cases ok
        exact ⟨q, n, rfl, exact, fits, rfl⟩
      · cases ok
  · rintro ⟨q, n, value, exact, fits, rfl⟩
    rw [callRounding_of_value value exact, if_pos fits]

/-- A call fails by a fault of arithmetic: the number has no value, or is rounded to an integer without 64 bits. -/
theorem callRounding_eq_error {r : Rounding} {x : Float} {optional : Bool} {failure : Failure}
    (fails : callRounding r x optional = .error failure) :
    failure.kind = .arithmeticFault
      ∧ (value? x = none ∨ ∃ q n, value? x = some q ∧ r.Exact q n ∧ fits64 n = false) := by
  cases value : value? x with
  | none =>
    rw [callRounding_of_none value] at fails
    cases fails
    exact ⟨rfl, .inl rfl⟩
  | some q =>
    obtain ⟨n, -, exact⟩ := Rounding.exact_toInt? value r
    rw [callRounding_of_value value exact] at fails
    split at fails
    · cases fails
    · rename_i unfit
      cases fails
      exact ⟨rfl, .inr ⟨q, n, rfl, exact, Bool.eq_false_iff.2 unfit⟩⟩

theorem callRounding_eq_error_iff {r : Rounding} {x : Float} {optional : Bool} :
    (∃ failure, callRounding r x optional = .error failure)
      ↔ x.isNaN = true ∨ x.isInf = true ∨ ∃ q n, value? x = some q ∧ r.Exact q n ∧ fits64 n = false := by
  rw [← or_assoc, ← value?_eq_none_iff]
  constructor
  · rintro ⟨failure, fails⟩
    exact (callRounding_eq_error fails).2
  · rintro (none | ⟨q, n, value, exact, unfit⟩)
    · exact ⟨_, callRounding_of_none none r optional⟩
    · refine ⟨.roundedOutOfRange r.name n, ?_⟩
      rw [callRounding_of_value value exact, unfit]
      rfl

/-- The integer that a call gives is the one that the value is rounded to. -/
theorem exact_of_callRounding {r : Rounding} {x : Float} {q : ℚ} {n : Int} {optional : Bool} (value : value? x = some q)
    (ok : callRounding r x optional = .ok ⟨.int n, false⟩) : r.Exact q n := by
  obtain ⟨q', n', value', exact, -, same⟩ := callRounding_eq_ok_iff.1 ok
  obtain rfl := Option.some.inj (value.symm.trans value')
  cases same
  exact exact

/-- Where a number and its negation are rounded to integers with 64 bits, opposite directions give opposite ones. -/
theorem callRounding_neg {r r' : Rounding} (opposite : ∀ {q : ℚ} {n : Int}, r.Exact q n → r'.Exact (-q) (-n))
    {x : Float} {m n : Int} {optional : Bool} (first : callRounding r x optional = .ok ⟨.int m, false⟩)
    (second : callRounding r' (-x) optional = .ok ⟨.int n, false⟩) : n = -m := by
  obtain ⟨q, n', value, -, -, -⟩ := callRounding_eq_ok_iff.1 first
  have turned : value? (-x) = some (-q) := by rw [value?_neg, value, Option.map_some]
  exact (exact_of_callRounding turned second).unique (opposite (exact_of_callRounding value first))

/-- The methods that round give the exact integer of the number's value, and no other one; they fail by a fault of
arithmetic if the number is none or infinite, or if that integer has not 64 bits. The number nearest to the negation is
the negation of the nearest, and the negation is rounded down to the negation of what the number is rounded up to. -/
theorem callRounding_exact (x : Float) (optional : Bool) :
    (∀ (r : Rounding) (q : ℚ), ∃! n, r.Exact q n)
      ∧ (∀ (r : Rounding) (result : Resolved), callRounding r x optional = .ok result
        ↔ ∃ q n, value? x = some q ∧ r.Exact q n ∧ fits64 n = true ∧ result = ⟨.int n, false⟩)
      ∧ (∀ r : Rounding, (∃ failure, callRounding r x optional = .error failure)
        ↔ x.isNaN = true ∨ x.isInf = true ∨ ∃ q n, value? x = some q ∧ r.Exact q n ∧ fits64 n = false)
      ∧ (∀ (r : Rounding) (failure : Failure), callRounding r x optional = .error failure →
        failure.kind = .arithmeticFault)
      ∧ ∀ m n : Int,
        (callRounding .round x optional = .ok ⟨.int m, false⟩ → callRounding .round (-x) optional = .ok ⟨.int n, false⟩ →
            n = -m)
          ∧ (callRounding .ceil x optional = .ok ⟨.int m, false⟩ → callRounding .floor (-x) optional = .ok ⟨.int n, false⟩ →
            n = -m) := by
  refine ⟨Rounding.existsUnique_exact, fun r result => callRounding_eq_ok_iff, fun r => callRounding_eq_error_iff,
    fun r failure fails => (callRounding_eq_error fails).1, fun m n => ⟨?_, ?_⟩⟩
  · exact callRounding_neg Rounding.exact_round_neg
  · exact callRounding_neg Rounding.exact_floor_neg

/-- A half goes away from zero; the greatest integer with 64 bits has no number, and the next one is out of range. -/
theorem callRounding_exact_edges :
    callRounding .round 2.5 false = .ok ⟨.int 3, false⟩
      ∧ (∀ n, callRounding .round (-2.5) false = .ok ⟨.int n, false⟩ → n = -3)
      ∧ ∃ failure, callRounding .trunc (Float.ofBits 0x43E0000000000000) false = .error failure
        ∧ failure.kind = .arithmeticFault := by
  obtain ⟨-, succeeds, -, -, symmetric⟩ := callRounding_exact 2.5 false
  obtain ⟨-, -, fails, faults, -⟩ := callRounding_exact (Float.ofBits 0x43E0000000000000) false
  have value : value? 2.5 = some (5 / 2) := by
    rw [value?, show parts 2.5 = .finite false (5 * 2 ^ 50) (-51) by decide +kernel, Parts.value?]
    norm_num
  have value' : value? (Float.ofBits 0x43E0000000000000) = some (2 ^ 63) := by
    rw [value?, show parts (Float.ofBits 0x43E0000000000000) = .finite false (2 ^ 52) 11 by decide +kernel, Parts.value?]
    norm_num
  have half : Rounding.round.Exact (5 / 2) 3 := by
    apply Rounding.exact_round_of_bounds <;> norm_num
  have whole : Rounding.trunc.Exact (2 ^ 63) (2 ^ 63) := by
    have same : towardZero (2 ^ 63) = 2 ^ 63 := by
      have cut := towardZero_intCast_div (2 ^ 63) 1
      norm_num at cut
      exact cut
    exact same ▸ .trunc
  have three := (succeeds .round ⟨.int 3, false⟩).2 ⟨5 / 2, 3, value, half, rfl, rfl⟩
  obtain ⟨failure, failed⟩ := (fails .trunc).2 (.inr (.inr ⟨2 ^ 63, 2 ^ 63, value', whole, rfl⟩))
  exact ⟨three, fun n => (symmetric 3 n).1 three, failure, failed, faults .trunc failure failed⟩

end Method

end NamedExpr
