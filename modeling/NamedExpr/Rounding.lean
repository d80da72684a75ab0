import NamedExpr.Binary64
/-!
# Rounding a binary64 number to an integer

Cutting toward zero, down and up work on the exact fraction `± mantissa * 2 ^ exponent`. The nearest integer
is the one that the number is cut to, or the next one further from zero, as the difference between the number
and what it is cut to says; that difference is one of binary64 numbers.
-/

namespace NamedExpr

/-- A direction of rounding. -/
inductive Rounding where
  | trunc
  | floor
  | ceil
  | round
  deriving Repr, DecidableEq

namespace Rounding

/-- The method that rounds in this direction. -/
def name : Rounding → String
  | .trunc => "trunc"
  | .floor => "floor"
  | .ceil => "ceil"
  | .round => "round"

/-- The integer that the fraction `num / den` is cut to toward zero, for a positive `den`. -/
def cut (num : Int) (den : Nat) : Int := num.tdiv den

/-- The integer nearest to `x`, a half going away from zero, if `whole` is the one that `x` is cut to. -/
def nearest (x : Float) (whole : Int) : Int :=
  if 0.5 ≤ (x - Binary64.ofInt whole).abs then (if 0.0 < x then whole + 1 else whole - 1) else whole

/-- Rounds a number; one that is infinite or no number has no integer value. -/
def toInt? (r : Rounding) (x : Float) : Option Int :=
  match Binary64.parts x with
  | .finite negative mantissa exponent =>
    let (magnitude, den) := Binary64.fraction mantissa exponent
    let num : Int := if negative then -(magnitude : Int) else magnitude
    match r with
    | .trunc => some (cut num den)
    | .floor => some (num.fdiv den)
    | .ceil => some (-((-num).fdiv den))
    | .round => some (nearest x (cut num den))
  | _ => none

end Rounding

end NamedExpr
