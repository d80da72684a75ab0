import Mathlib
import NamedExpr.Method.Dispatch
/-!
# Integer arithmetic

An arithmetic operator has at most one exact result for two integers (`Operator.Exact`): a quotient is the fraction cut
toward zero, and a remainder has the sign of the dividend and a magnitude below that of the divisor. The operator gives
that result if it has 64 bits, and is a fault of arithmetic otherwise (`Operator.apply_ints_eq_ok_iff`,
`Operator.kind_of_apply_ints`). The quotient is computed from magnitudes that are divided with rounding down, and the
remainder from the quotient; under the sign of the product that is the division that rounds toward zero
(`Operator.quotient_eq`, `Operator.remainder_eq`), from which both exact results come (`exact_div_iff`,
`exact_rem_iff`).
-/

namespace NamedExpr

-- Powers are those of the core library, also beside modules that bring others.
attribute [local instance (high)] instPowNat

/-! ## Cutting toward zero -/

/-- A fraction without what it has after the point. -/
def towardZero (q : ℚ) : Int := if 0 ≤ q then ⌊q⌋ else ⌈q⌉

theorem towardZero_neg (q : ℚ) : towardZero (-q) = -towardZero q := by
  obtain negative | rfl | positive := lt_trichotomy q 0
  · rw [towardZero, towardZero, if_pos (by linarith), if_neg (by linarith), Int.floor_neg]
  · simp [towardZero]
  · rw [towardZero, towardZero, if_neg (by linarith), if_pos positive.le, Int.ceil_neg]

theorem towardZero_natCast_div (m n : Nat) : towardZero ((m : ℚ) / n) = (m : Int).tdiv n := by
  have floor := Rat.floor_intCast_div_natCast (m : Int) n
  rw [Int.cast_natCast] at floor
  rw [towardZero, if_pos (by positivity), floor, Int.tdiv_eq_ediv_of_nonneg (Int.natCast_nonneg m)]

/-- The quotient that rounds toward zero is the fraction cut toward zero. -/
theorem towardZero_intCast_div (a b : Int) : towardZero ((a : ℚ) / b) = a.tdiv b := by
  have natural := towardZero_natCast_div
  obtain ⟨m, rfl | rfl⟩ := a.eq_nat_or_neg
  · obtain ⟨n, rfl | rfl⟩ := b.eq_nat_or_neg
    · simpa using natural m n
    · simpa [div_neg, towardZero_neg] using natural m n
  · obtain ⟨n, rfl | rfl⟩ := b.eq_nat_or_neg
    · simpa [neg_div, towardZero_neg] using natural m n
    · simpa [neg_div_neg_eq] using natural m n

namespace Operator

/-! ## Exact results -/

/-- The exact result of an arithmetic operator on two integers. There is none for a division by zero. -/
inductive Exact (a b : Int) : Operator → Int → Prop where
  | add : Exact a b .add (a + b)
  | sub : Exact a b .sub (a - b)
  | mul : Exact a b .mul (a * b)
  | div (nonzero : b ≠ 0) : Exact a b .div (towardZero ((a : ℚ) / b))
  | rem {r : Int} (nonzero : b ≠ 0) (divides : b ∣ a - r) (small : |r| < |b|) (sign : r ≠ 0 → r.sign = a.sign) :
      Exact a b .rem r

theorem exact_div_iff {a b n : Int} : Exact a b .div n ↔ b ≠ 0 ∧ n = a.tdiv b := by
  rw [← towardZero_intCast_div]
  constructor
  · rintro ⟨⟩
    rename_i nonzero
    exact ⟨nonzero, rfl⟩
  · rintro ⟨nonzero, rfl⟩
    exact .div nonzero

/-- Only one integer has the remainder's sign and magnitude and leaves a multiple of the divisor. -/
theorem eq_tmod_of_exact {a b r : Int} (divides : b ∣ a - r) (small : |r| < |b|) (sign : r ≠ 0 → r.sign = a.sign)
    (nonzero : b ≠ 0) : r = a.tmod b := by
  obtain ⟨q, multiple⟩ := divides
  rw [Int.abs_eq_natAbs, Int.abs_eq_natAbs] at small
  obtain nonneg | nonpos := Int.le_total 0 a
  · have lower : 0 ≤ r := by
      by_contra negative
      have same := sign (by omega)
      rw [Int.sign_eq_neg_one_of_neg (by omega)] at same
      exact absurd (Int.sign_eq_neg_one_iff_neg.1 same.symm) (by omega)
    exact ((Int.tdiv_tmod_unique nonneg nonzero (q := q)).2 ⟨by omega, lower, by omega⟩).2.symm
  · have upper : r ≤ 0 := by
      by_contra positive
      have same := sign (by omega)
      rw [Int.sign_eq_one_of_pos (by omega)] at same
      exact absurd (Int.sign_eq_one_iff_pos.1 same.symm) (by omega)
    exact ((Int.tdiv_tmod_unique' nonpos nonzero (q := q)).2 ⟨by omega, by omega, upper⟩).2.symm

theorem exact_rem_iff {a b n : Int} : Exact a b .rem n ↔ b ≠ 0 ∧ n = a.tmod b := by
  constructor
  · rintro ⟨⟩
    rename_i nonzero divides small sign
    exact ⟨nonzero, eq_tmod_of_exact divides small sign nonzero⟩
  · rintro ⟨nonzero, rfl⟩
    have divides : b ∣ a - a.tmod b := ⟨a.tdiv b, by have := Int.mul_tdiv_add_tmod a b; omega⟩
    refine .rem nonzero divides ?_ fun some => ?_
    · rw [Int.abs_eq_natAbs, Int.abs_eq_natAbs, Int.natAbs_tmod]
      exact_mod_cast Nat.mod_lt _ (Int.natAbs_pos.2 nonzero)
    · have sign := Int.sign_tmod a b
      rwa [if_neg fun whole => some (Int.tmod_eq_zero_of_dvd whole)] at sign

/-- An arithmetic operator has one exact result, unless it divides by zero. -/
theorem existsUnique_exact_iff {op : Operator} (arithmetic : op.isArithmetic = true) (a b : Int) :
    (∃! n, op.Exact a b n) ↔ (op = .div ∨ op = .rem → b ≠ 0) := by
  cases op with
  | add => exact ⟨fun _ => by simp, fun _ => ⟨_, .add, by rintro _ ⟨⟩; rfl⟩⟩
  | sub => exact ⟨fun _ => by simp, fun _ => ⟨_, .sub, by rintro _ ⟨⟩; rfl⟩⟩
  | mul => exact ⟨fun _ => by simp, fun _ => ⟨_, .mul, by rintro _ ⟨⟩; rfl⟩⟩
  | div => simp [exact_div_iff, ExistsUnique]
  | rem => simp [exact_rem_iff, ExistsUnique]
  | eq | ne | gt | lt | ge | le | and | or => cases arithmetic

/-! ## Quotients of magnitudes -/

/-- The quotient of the magnitudes under the sign of the product is the quotient that rounds toward zero. -/
theorem quotient_eq (a b : Int) : quotient a b = if b = 0 then .error .divisionByZero else .ok (a.tdiv b) := by
  have magnitudes : (a.natAbs : Int).fdiv b.natAbs = (a.natAbs : Int).tdiv b.natAbs := by
    rw [Int.fdiv_eq_ediv_of_nonneg _ (Int.natCast_nonneg _), Int.tdiv_eq_ediv_of_nonneg (Int.natCast_nonneg _)]
  have signed : (if decide (a < 0) = decide (b < 0) then (a.natAbs : Int).tdiv b.natAbs
      else -(a.natAbs : Int).tdiv b.natAbs) = a.tdiv b := by
    obtain nonneg | negative := le_or_gt 0 a
    · rw [Int.natAbs_of_nonneg nonneg]
      obtain nonneg' | negative' := le_or_gt 0 b
      · rw [Int.natAbs_of_nonneg nonneg', if_pos (by simp [not_lt.2 nonneg, not_lt.2 nonneg'])]
      · rw [Int.ofNat_natAbs_of_nonpos negative'.le, if_neg (by simp [nonneg, negative']), Int.tdiv_neg, neg_neg]
    · rw [Int.ofNat_natAbs_of_nonpos negative.le, Int.neg_tdiv]
      obtain nonneg' | negative' := le_or_gt 0 b
      · rw [Int.natAbs_of_nonneg nonneg', if_neg (by simp [negative, nonneg']), neg_neg]
      · rw [Int.ofNat_natAbs_of_nonpos negative'.le, if_pos (by simp [negative, negative']), Int.tdiv_neg, neg_neg]
  simp only [quotient, magnitudes, signed]

/-- What that quotient leaves is the remainder with the sign of the dividend. -/
theorem remainder_eq (a b : Int) : remainder a b = if b = 0 then .error .remainderByZero else .ok (a.tmod b) := by
  rw [remainder, quotient_eq]
  split
  · rfl
  · rw [Int.tmod_def]
    rfl

/-! ## Exact or a fault -/

end Operator

theorem Value.checkedInt_eq (n : Int) :
    checkedInt n = if fits64 n = true then .ok (.int n) else .error (.integerOverflow n) := by
  unfold checkedInt ofInt
  split
  · rfl
  · rfl

theorem Value.checkedInt_eq_ok_iff {n : Int} {v : Value} : checkedInt n = .ok v ↔ fits64 n = true ∧ v = .int n := by
  rw [checkedInt_eq]
  split
  · rename_i fits
    simp [fits, eq_comm]
  · rename_i large
    simp [large]

theorem Value.kind_of_checkedInt {n : Int} {failure : Failure} (fault : checkedInt n = .error failure) :
    failure.kind = .arithmeticFault := by
  rw [checkedInt_eq] at fault
  split at fault
  · cases fault
  · cases fault
    rfl

namespace Operator

theorem apply_ints {op : Operator} (arithmetic : op.isArithmetic = true) (a b : Int) :
    op.apply (.int a) (.int b) = op.onInts a b := by
  cases op with
  | add | sub | mul | div | rem => rfl
  | eq | ne | gt | lt | ge | le | and | or => cases arithmetic

/-- An operator gives the exact result for two integers if that has 64 bits, and nothing else. -/
theorem apply_ints_eq_ok_iff {op : Operator} (arithmetic : op.isArithmetic = true) {a b : Int} {v : Value} :
    op.apply (.int a) (.int b) = .ok v ↔ ∃ n, op.Exact a b n ∧ fits64 n = true ∧ v = .int n := by
  have only {n : Int} {exact : Int → Prop} (same : ∀ m, exact m ↔ m = n) :
      Value.checkedInt n = .ok v ↔ ∃ m, exact m ∧ fits64 m = true ∧ v = .int m := by
    rw [Value.checkedInt_eq_ok_iff]
    constructor
    · intro fine
      exact ⟨n, (same n).2 rfl, fine⟩
    · rintro ⟨m, exact, fine⟩
      rwa [(same m).1 exact] at fine
  rw [apply_ints arithmetic]
  cases op with
  | add => exact only fun m => ⟨by rintro ⟨⟩; rfl, by rintro rfl; exact .add⟩
  | sub => exact only fun m => ⟨by rintro ⟨⟩; rfl, by rintro rfl; exact .sub⟩
  | mul => exact only fun m => ⟨by rintro ⟨⟩; rfl, by rintro rfl; exact .mul⟩
  | div =>
    rw [onInts, quotient_eq]
    split
    · rename_i zero
      simp [exact_div_iff, zero, Except.bind]
    · rename_i nonzero
      exact only fun m => by rw [exact_div_iff, and_iff_right nonzero]
  | rem =>
    rw [onInts, remainder_eq]
    split
    · rename_i zero
      simp [exact_rem_iff, zero, Except.bind]
    · rename_i nonzero
      exact only fun m => by rw [exact_rem_iff, and_iff_right nonzero]
  | eq | ne | gt | lt | ge | le | and | or => cases arithmetic

theorem kind_of_apply_ints {op : Operator} (arithmetic : op.isArithmetic = true) {a b : Int} {failure : Failure}
    (fault : op.apply (.int a) (.int b) = .error failure) : failure.kind = .arithmeticFault := by
  rw [apply_ints arithmetic] at fault
  cases op with
  | add | sub | mul => exact Value.kind_of_checkedInt fault
  | div | rem =>
    simp only [onInts, quotient_eq, remainder_eq] at fault
    split at fault
    · cases fault
      rfl
    · exact Value.kind_of_checkedInt fault
  | eq | ne | gt | lt | ge | le | and | or => cases arithmetic

/-- A quotient and a remainder that both have 64 bits make up the dividend. -/
theorem quotient_mul_add_remainder {a b q r : Int} (quotient : div.apply (.int a) (.int b) = .ok (.int q))
    (remainder : rem.apply (.int a) (.int b) = .ok (.int r)) : a = q * b + r := by
  obtain ⟨_, exact, -, same⟩ := (apply_ints_eq_ok_iff rfl).1 quotient
  obtain rfl := Value.int.inj same
  obtain ⟨_, exact', -, same'⟩ := (apply_ints_eq_ok_iff rfl).1 remainder
  obtain rfl := Value.int.inj same'
  rw [(exact_div_iff.1 exact).2, (exact_rem_iff.1 exact').2, Int.tdiv_mul_add_tmod]

/-- No integer leaves a remainder when it is divided by minus one. -/
theorem rem_neg_one (a : Int) : rem.apply (.int a) (.int (-1)) = .ok (.int 0) := by
  have exact : Exact a (-1) .rem 0 := .rem (by decide) ⟨-a, by omega⟩ (by decide) (by simp)
  exact (apply_ints_eq_ok_iff rfl).2 ⟨0, exact, by decide, rfl⟩

end Operator

/-! ## Signs -/

theorem fits64_neg_iff {n : Int} (fits : fits64 n = true) : fits64 (-n) = true ↔ n ≠ -2 ^ (63 : Nat) := by
  rw [fits64_iff] at fits ⊢
  omega

theorem fits64_natAbs_iff {n : Int} (fits : fits64 n = true) : fits64 n.natAbs = true ↔ n ≠ -2 ^ (63 : Nat) := by
  rw [fits64_iff] at fits ⊢
  omega

/-- Of the 64-bit integers, only the least has no negative with 64 bits. -/
theorem UnaryOperator.neg_int {n : Int} (fits : fits64 n = true) :
    neg.apply (.int n) = if n = -2 ^ (63 : Nat) then .error (.integerOverflow (-n)) else .ok (.int (-n)) := by
  show Value.checkedInt (-n) = _
  rw [Value.checkedInt_eq]
  simp only [fits64_neg_iff fits, ne_eq, ite_not]

/-- Of the 64-bit integers, only the least has no magnitude with 64 bits. -/
theorem Method.abs_int {n : Int} (fits : fits64 n = true) (optional : Bool) :
    dispatch "abs" (some ⟨.int n, optional⟩) 0
      = .settled (if n = -2 ^ (63 : Nat) then .error (.integerOverflow |n|) else .ok ⟨.int |n|, false⟩) := by
  have method : ofName? "abs" = some (.numeric .abs) := @ofName?_name (.numeric .abs) (by decide)
  have called : dispatch "abs" (some ⟨.int n, optional⟩) 0
      = .settled ((Value.checkedInt n.natAbs).map fun v => ⟨v, false⟩) := by
    simp only [dispatch, method]
    rfl
  rw [called, Value.checkedInt_eq, Int.abs_eq_natAbs]
  simp only [fits64_natAbs_iff fits, ne_eq, ite_not]
  split
  · rfl
  · rfl

/-! ## Repeating a text -/

namespace Value

/-- Copies that are put after one another join up. -/
theorem copiesAfter_eq (text acc : String) (times : Nat) :
    copiesAfter text acc times = acc ++ String.join (List.replicate times text) := by
  induction times generalizing acc with
  | zero => simp [copiesAfter]
  | succ times ih => rw [copiesAfter, ih, List.replicate_succ, String.join_cons, String.append_assoc]

theorem join_replicate_empty (times : Nat) : String.join (List.replicate times "") = "" := by
  induction times with
  | zero => rfl
  | succ times ih => rw [List.replicate_succ, String.join_cons, ih, String.append_empty]

/-- A text is repeated unless that makes it too long. -/
theorem repeated_eq (text : String) (times : Int) :
    repeated text times = if 2 ^ (24 : Nat) < (text.length : Int) * times then .error .repeatTooLong
      else .ok (.str (String.join (List.replicate times.toNat text))) := by
  have whole : repeated text times = if times ≤ 0 ∨ text.isEmpty then .ok (.str "")
      else if maxRepeatLength < text.length * times.toNat then .error .repeatTooLong
      else .ok (.str (String.join (List.replicate times.toNat text))) := by
    rw [repeated, copiesAfter_eq, String.empty_append]
  rw [whole]
  split
  · rename_i none
    obtain nonpos | empty := none
    · have product : (text.length : Int) * times ≤ 0 := Int.mul_nonpos_of_nonneg_of_nonpos (by omega) nonpos
      rw [if_neg (by omega), Int.toNat_of_nonpos nonpos]
      rfl
    · obtain rfl := String.isEmpty_iff.1 empty
      simp [join_replicate_empty]
  · rename_i some
    obtain ⟨n, rfl⟩ := Int.eq_ofNat_of_zero_le (show 0 ≤ times by omega)
    have long : maxRepeatLength < text.length * (n : Int).toNat ↔ 2 ^ (24 : Nat) < (text.length : Int) * n := by
      rw [Int.toNat_natCast, maxRepeatLength]
      exact_mod_cast Iff.rfl
    simp only [long]

end Value

/-! ## All operators on integers -/

/-- Arithmetic on 64-bit integers is exact or a fault. An operator gives its exact result if there is one and it has 64
bits, and fails with a fault of arithmetic otherwise; only a division by zero has no exact result. So a quotient and a
remainder make up the dividend, and dividing the least integer by minus one leaves no remainder although the quotient is
too large. Only the least integer has no negative and no magnitude. A text times an integer is that many copies, on
whichever side the integer stands, unless they are longer than a repeated text may be. -/
theorem Operator.integers_exact_or_fault :
    (∀ (op : Operator) (a b : Int), op.isArithmetic = true → fits64 a = true → fits64 b = true →
        (∀ v, op.apply (.int a) (.int b) = .ok v
            ↔ ∃ n, op.Exact a b n ∧ (-2 ^ (63 : Nat) ≤ n ∧ n < 2 ^ (63 : Nat)) ∧ v = .int n)
          ∧ (∀ failure, op.apply (.int a) (.int b) = .error failure → failure.kind = .arithmeticFault)
          ∧ ((∃! n, op.Exact a b n) ↔ (op = .div ∨ op = .rem → b ≠ 0)))
      ∧ (∀ a b q r, div.apply (.int a) (.int b) = .ok (.int q) → rem.apply (.int a) (.int b) = .ok (.int r) →
          a = q * b + r)
      ∧ (∀ a, rem.apply (.int a) (.int (-1)) = .ok (.int 0))
      ∧ div.apply (.int (-2 ^ (63 : Nat))) (.int (-1)) = .error (.integerOverflow (2 ^ (63 : Nat)))
      ∧ (∀ n, fits64 n = true →
          UnaryOperator.neg.apply (.int n)
              = (if n = -2 ^ (63 : Nat) then .error (.integerOverflow (-n)) else .ok (.int (-n)))
            ∧ ∀ optional, Method.dispatch "abs" (some ⟨.int n, optional⟩) 0
              = .settled (if n = -2 ^ (63 : Nat) then .error (.integerOverflow |n|) else .ok ⟨.int |n|, false⟩))
      ∧ (∀ (s : String) (n : Int), mul.apply (.str s) (.int n) = mul.apply (.int n) (.str s)
          ∧ mul.apply (.str s) (.int n)
            = (if 2 ^ (24 : Nat) < (s.length : Int) * n then .error .repeatTooLong
                else .ok (.str (String.join (List.replicate n.toNat s))))
          ∧ (n ≤ 0 ∨ s = "" → mul.apply (.str s) (.int n) = .ok (.str "")))
      ∧ (∀ n, (Failure.integerOverflow n).kind = .arithmeticFault)
      ∧ Failure.repeatTooLong.kind = .arithmeticFault := by
  refine ⟨fun op a b arithmetic _ _ => ⟨fun v => ?_, fun failure => kind_of_apply_ints arithmetic, ?_⟩,
    fun a b q r => quotient_mul_add_remainder, rem_neg_one, rfl,
    fun n fits => ⟨UnaryOperator.neg_int fits, Method.abs_int fits⟩, fun s n => ⟨rfl, ?_, ?_⟩, fun n => rfl, rfl⟩
  · simp only [apply_ints_eq_ok_iff arithmetic, fits64_iff]
  · exact existsUnique_exact_iff arithmetic a b
  · exact Value.repeated_eq s n
  · intro none
    show Value.repeated s n = _
    rw [Value.repeated, if_pos]
    exact none.imp_right String.isEmpty_iff.2

/-- A quotient of a negative integer is cut toward zero and its remainder is negative; the least integer has no
negative; and three copies of a text make one text. -/
theorem Operator.integers_exact_or_fault_negative :
    (div.apply (.int (-7)) (.int 2) = .ok (.int (-3)) ∧ rem.apply (.int (-7)) (.int 2) = .ok (.int (-1))
        ∧ Exact (-7) 2 .div (-3) ∧ Exact (-7) 2 .rem (-1) ∧ -7 = (-3 : Int) * 2 + -1)
      ∧ UnaryOperator.neg.apply (.int (-2 ^ (63 : Nat))) = .error (.integerOverflow (2 ^ (63 : Nat)))
      ∧ mul.apply (.int 3) (.str "ab") = .ok (.str "ababab") := by
  obtain ⟨exact, whole, -, -, signs, texts, -⟩ := integers_exact_or_fault
  have quotient : div.apply (.int (-7)) (.int 2) = .ok (.int (-3)) := rfl
  have remainder : rem.apply (.int (-7)) (.int 2) = .ok (.int (-1)) := rfl
  obtain ⟨q, exact_q, -, same_q⟩ := ((exact .div (-7) 2 rfl (by decide) (by decide)).1 _).1 quotient
  obtain rfl := Value.int.inj same_q
  obtain ⟨r, exact_r, -, same_r⟩ := ((exact .rem (-7) 2 rfl (by decide) (by decide)).1 _).1 remainder
  obtain rfl := Value.int.inj same_r
  obtain ⟨swapped, repeated, -⟩ := texts "ab" 3
  refine ⟨⟨quotient, remainder, exact_q, exact_r, whole _ _ _ _ quotient remainder⟩, ?_, ?_⟩
  · exact (signs (-2 ^ (63 : Nat)) (by decide)).1
  · rw [← swapped, repeated]
    rfl

end NamedExpr
