import NamedExpr.Proofs.Arguments
import NamedExpr.Proofs.WholeNumbers
/-!
# Powers under integer exponents

A platform's power turns its sign with that of the base under an odd exponent, keeps it under an even one, and fails
alike for both signs (`Elementary.RespectsSign`). The numbers that stand in place of its faults do the same, but for one:
a zero to a negative power is positive infinity whatever the signs are (`Elementary.powerBy_neg`). An exponent of the
language is an integer of 64 bits, and the platform is given the number nearest to it, which is odd only if it is the
exponent itself (`Elementary.turnsSign_iff`).
-/

namespace NamedExpr

-- Powers are those of the core library, also beside modules that bring others.
attribute [local instance (high)] instPowNat

namespace Elementary

open Binary64

/-- How a power treats the sign of its base under integer exponents, of which `isOddInteger` tells the odd ones: it turns
with the sign of the base or stays, and its faults are the same for both signs. For a zero it has a fault if the exponent
is negative, and else none. -/
structure RespectsSign (pow : Float → Float → Except PowerFault Float) : Prop where
  neg {x y : Float} (number : x.isNaN = false) (integer : isInteger y = true) :
    pow (-x) y = (pow x y).map fun z => if isOddInteger y then -z else z
  zero {x y : Float} (zero : (x == 0.0) = true) (integer : isInteger y = true) :
    if y < 0.0 then pow x y = .error .domain else ∃ z, pow x y = .ok z

/-- The power of the negated base is the negated power if the exponent is odd, but of zeros only under exponents that are
not negative. -/
theorem powerBy_neg {pow : Float → Float → Except PowerFault Float} (respects : RespectsSign pow) {x y : Float}
    (number : x.isNaN = false) (integer : isInteger y = true) :
    powerBy pow (-x) y
      = if isOddInteger y = true ∧ ¬((x == 0.0) = true ∧ y < 0.0) then -powerBy pow x y else powerBy pow x y := by
  rw [powerBy, powerBy, respects.neg number integer]
  by_cases zero : (x == 0.0) = true
  · have known := respects.zero zero integer
    split at known
    · rename_i negative
      simp [known, Except.map, neg_beq_zero, zero, negative]
    · rename_i notNegative
      obtain ⟨z, result⟩ := known
      simp [result, Except.map, notNegative]
  · cases pow x y with
    | ok z => simp [Except.map, zero]
    | error fault =>
      cases fault with
      | overflow =>
        have opposite := neg_lt_zero_iff number (Bool.eq_false_iff.2 zero)
        by_cases negative : x < 0.0 <;> by_cases odd : isOddInteger y = true <;>
          simp [Except.map, zero, opposite, negative, odd, neg_neg]
      | domain => simp [Except.map, neg_beq_zero, zero, neg_notANumber]

theorem signedPower_neg (pow : Float → Float → Float) {x y : Float} (number : x.isNaN = false)
    (integer : isInteger y = true) :
    signedPower pow (-x) y = if isOddInteger y then -signedPower pow x y else signedPower pow x y := by
  have self := abs_eq number
  have self' := abs_eq ((isNaN_neg x).trans number)
  rw [abs_neg, isNegative_neg number] at self'
  simp only [signedPower, integer, isNegative_neg number, abs_neg, Bool.and_true]
  cases negative : isNegative x with
  | true => cases isOddInteger y <;> simp_all [neg_neg]
  | false => simp_all

/-- A platform's power keeps to the sign of its base, however it rounds. -/
theorem respectsSign_platformPower (pow : Float → Float → Float) : RespectsSign (platformPower pow) where
  neg {x y} number integer := by
    have turned := signedPower_neg pow number integer
    have finite : (signedPower pow (-x) y).isFinite = (signedPower pow x y).isFinite := by
      rw [turned]
      split
      · exact isFinite_neg _
      · rfl
    have nan : (signedPower pow (-x) y).isNaN = (signedPower pow x y).isNaN := by
      rw [turned]
      split
      · exact isNaN_neg _
      · rfl
    simp only [platformPower, neg_beq_zero, isFinite_neg, finite, nan]
    rw [turned]
    split
    · split <;> rfl
    · split <;> rfl
  zero {x y} zero integer := by
    simp only [platformPower, zero, if_true]
    split
    · rfl
    · exact ⟨_, rfl⟩

/-- Of the negated base, the power is the negated power: the exponent is odd, it is a number itself, and it is not negative
if the base is a zero. -/
def TurnsSign (x : Float) (n : Int) : Prop :=
  n % 2 = 1 ∧ n.natAbs < 2 ^ 53 ∧ ¬((x == 0.0) = true ∧ n < 0)

instance (x : Float) (n : Int) : Decidable (TurnsSign x n) := inferInstanceAs (Decidable (_ ∧ _ ∧ ¬(_ ∧ _)))

/-- The number nearest to an exponent stands for it as far as signs go. -/
theorem turnsSign_iff {x : Float} {n : Int} (fits : fits64 n = true) :
    isOddInteger (ofInt n) = true ∧ ¬((x == 0.0) = true ∧ ofInt n < 0.0) ↔ TurnsSign x n := by
  rw [isOddInteger_ofInt fits, ofInt_lt_zero_iff fits, decide_eq_true_iff, and_assoc, TurnsSign]

theorem powerBy_neg_ofInt {pow : Float → Float → Except PowerFault Float} (respects : RespectsSign pow) {x : Float}
    {n : Int} (number : x.isNaN = false) (fits : fits64 n = true) :
    powerBy pow (-x) (ofInt n)
      = if TurnsSign x n then -powerBy pow x (ofInt n) else powerBy pow x (ofInt n) := by
  rw [powerBy_neg respects number (isInteger_ofInt fits)]
  exact if_congr (turnsSign_iff fits) rfl rfl

theorem powerBy_zero {pow : Float → Float → Except PowerFault Float} (respects : RespectsSign pow) {x y : Float}
    (zero : (x == 0.0) = true) (integer : isInteger y = true) (negative : y < 0.0) : powerBy pow x y = infinity := by
  have failed := respects.zero zero integer
  rw [if_pos negative] at failed
  simp [powerBy, failed, zero]

end Elementary

namespace Method

open Binary64 Elementary

/-- The call of `powi` on a number that is no integer. -/
def callPowi (x : Float) (n : Int) (optional optional' : Bool) : Except Failure Resolved :=
  callDeferred "powi" (some ⟨.float x, optional⟩) [.ok (some ⟨.int n, optional'⟩)]

theorem callPowi_eq (x : Float) (n : Int) (optional optional' : Bool) :
    callPowi x n optional optional' = .ok ⟨.float (power x (ofInt n)), false⟩ := by
  rw [callPowi, callDeferred_of_first rfl]
  rfl

theorem callPowi_zero {x : Float} {n : Int} (zero : (x == 0.0) = true) (negative : n < 0) (fits : fits64 n = true)
    (optional optional' : Bool) : callPowi x n optional optional' = .ok ⟨.float infinity, false⟩ := by
  rw [callPowi_eq, power, powerBy_zero (respectsSign_platformPower Float.pow) zero (isInteger_ofInt fits)
    ((ofInt_lt_zero_iff fits).2 negative)]

/-- A number to the power of a 64-bit integer turns its sign with the base under an odd exponent, and keeps it under an
even one, whatever the platform's power is that respects signs. The exponents from `2 ^ 53` on count as even, and a zero
to a negative power is positive infinity. -/
theorem callPowi_neg {x : Float} {n : Int} (number : x.isNaN = false) (fits : fits64 n = true) :
    (∀ pow : Float → Float → Except PowerFault Float, RespectsSign pow →
        powerBy pow (-x) (ofInt n)
            = (if TurnsSign x n then -powerBy pow x (ofInt n) else powerBy pow x (ofInt n))
          ∧ ((x == 0.0) = true → n < 0 → powerBy pow x (ofInt n) = infinity))
      ∧ RespectsSign (platformPower Float.pow)
      ∧ ∀ optional optional' : Bool,
        callPowi x n optional optional' = .ok ⟨.float (powerBy (platformPower Float.pow) x (ofInt n)), false⟩
          ∧ callPowi (-x) n optional optional'
            = .ok ⟨.float (if TurnsSign x n then -powerBy (platformPower Float.pow) x (ofInt n)
              else powerBy (platformPower Float.pow) x (ofInt n)), false⟩ := by
  have respects := respectsSign_platformPower Float.pow
  refine ⟨fun pow respects => ⟨powerBy_neg_ofInt respects number fits, fun zero negative => ?_⟩, respects,
    fun optional optional' => ⟨callPowi_eq .., ?_⟩⟩
  · exact powerBy_zero respects zero (isInteger_ofInt fits) ((ofInt_lt_zero_iff fits).2 negative)
  · rw [callPowi_eq, power, powerBy_neg_ofInt respects number fits]

/-- The cube of a great number overflows, and is an infinity with the sign of the number. A zero to the power of minus two
is positive infinity for both zeros. -/
theorem callPowi_neg_cube :
    let cube := platformPower fun x _ => x * x * x
    let great := Float.ofBits 0x58F0000000000000
    powerBy cube great (ofInt 3) = infinity ∧ powerBy cube (-great) (ofInt 3) = -infinity
      ∧ callPowi 0.0 (-2) false false = .ok ⟨.float infinity, false⟩
      ∧ callPowi (-0.0) (-2) false false = .ok ⟨.float infinity, false⟩ := by
  intro cube great
  have overflow : powerBy cube great (ofInt 3) = infinity := by decide +kernel
  have turned := ((@callPowi_neg great 3 (by decide +kernel) (by decide)).1 cube (respectsSign_platformPower _)).1
  rw [overflow, if_pos (by decide +kernel)] at turned
  obtain ⟨general, respects, called⟩ := @callPowi_neg 0.0 (-2) (by decide +kernel) (by decide)
  obtain ⟨of, ofNeg⟩ := called false false
  have zero := (general _ respects).2 (by decide +kernel) (by decide)
  rw [zero] at of ofNeg
  rw [if_neg (by decide +kernel)] at ofNeg
  exact ⟨overflow, turned, of, ofNeg⟩

/-- A zero to the power of minus one is positive infinity for both zeros, although the exponent is odd. -/
theorem callPowi_neg_zero :
    (0.0 : Float).isNaN = false ∧ fits64 (-1) = true ∧ (-1 : Int) % 2 = 1
      ∧ callPowi 0.0 (-1) false false = .ok ⟨.float infinity, false⟩
      ∧ callPowi (-0.0) (-1) false false = .ok ⟨.float infinity, false⟩ ∧ infinity ≠ -infinity
      ∧ ∀ pow : Float → Float → Except PowerFault Float, RespectsSign pow →
        powerBy pow (-0.0) (ofInt (-1)) ≠ -powerBy pow 0.0 (ofInt (-1)) := by
  have distinct : infinity ≠ -infinity := by decide +kernel
  refine ⟨by decide +kernel, by decide, by decide, callPowi_zero (by decide +kernel) (by decide) (by decide) _ _,
    callPowi_zero (by decide +kernel) (by decide) (by decide) _ _, distinct, fun pow respects => ?_⟩
  have infinite (x : Float) (zero : (x == 0.0) = true) : powerBy pow x (ofInt (-1)) = infinity :=
    powerBy_zero respects zero (isInteger_ofInt (by decide)) ((ofInt_lt_zero_iff (by decide)).2 (by decide))
  rw [infinite 0.0 (by decide +kernel), infinite (-0.0) (by decide +kernel)]
  exact distinct

end Method

end NamedExpr
