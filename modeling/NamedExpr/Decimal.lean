import NamedExpr.Binary64
/-!
# Decimal numbers

`digits * 10 ^ exponent`, read from the parts of a literal and rounded to the nearest binary64 number, and
in the other direction the shortest decimal that reads back as a given number.
-/

namespace NamedExpr

-- Powers are those of the core library, also beside modules that bring others.
attribute [local instance (high)] instPowNat

/-- The decimal number `digits * 10 ^ exponent`. -/
structure Decimal where
  digits : Nat
  exponent : Int
  deriving Repr, DecidableEq

namespace Decimal

/-- How many digits a number is written with; `0` is written with one. -/
def length (n : Nat) : Nat := (Nat.toDigits 10 n).length

/-- The decimal as a fraction. -/
def fraction (d : Decimal) : Nat × Nat :=
  (d.digits * 10 ^ d.exponent.toNat, 10 ^ (-d.exponent).toNat)

/-- The position of the decimal point: the value lies below `10 ^ point`, and at or above `10 ^ (point - 1)`
unless it is zero. -/
def point (d : Decimal) : Int := length d.digits + d.exponent

/-- The pattern nearest to a decimal. A value of `10 ^ 310` or more is beyond every finite number and one
below `10 ^ -330` is less than half the smallest, so neither is expanded. -/
def nearestBits (d : Decimal) : Nat :=
  if d.digits = 0 then 0
  else if 310 < d.point then Binary64.infinityBits
  else if d.point < -330 then 0
  else Binary64.nearestBits d.fraction.1 d.fraction.2

/-- The number nearest to a decimal; beyond the largest finite number that is infinity. -/
def toFloat (d : Decimal) : Float := Float.ofBits (UInt64.ofNat d.nearestBits)

/-- Drops up to `count` trailing zeros of the digits. -/
def dropZeros : Nat → Decimal → Decimal
  | 0, d => d
  | count + 1, d =>
    if d.digits ≠ 0 ∧ d.digits % 10 = 0 then dropZeros count ⟨d.digits / 10, d.exponent + 1⟩ else d

/-- The same decimal with no trailing zero among its digits. -/
def normalized (d : Decimal) : Decimal := dropZeros (length d.digits) d

/-- The greatest `e` with `10 ^ e ≤ num / den`, for positive `num` and `den`. -/
def floorLog10 (num den : Nat) : Int :=
  if den ≤ num then (length (num / den) : Int) - 1
  else
    let below : Nat := length (den / num) - 1
    if den = num * 10 ^ below then -(below : Int) else -(below : Int) - 1

/-- Of the two neighbours `low` and `low + 1` of `num / den`, the nearer first; a tie goes to the even one. -/
def neighbours (num den : Nat) : List Nat :=
  let low := num / den
  let rest := num % den
  if 2 * rest < den ∨ (2 * rest = den ∧ low % 2 = 0) then [low, low + 1] else [low + 1, low]

/-- The two multiples of `10 ^ exponent` around `num / den`, the nearer first, without trailing zeros. -/
def candidates (num den : Nat) (exponent : Int) : List Decimal :=
  (neighbours (num * 10 ^ (-exponent).toNat) (den * 10 ^ exponent.toNat)).map
    fun digits => normalized ⟨digits, exponent⟩

/-- The nearest multiple of `10 ^ exponent` around `num / den` that reads back as the pattern `bits`. -/
def onGrid (bits num den : Nat) (exponent : Int) : Option Decimal :=
  (candidates num den exponent).find? fun d => nearestBits d = bits

/-- The first of `count` grids, from the one of `exponent` to finer ones, that holds a decimal reading back
as the pattern `bits`. -/
def firstOnGrids (bits num den : Nat) : Nat → Int → Option Decimal
  | 0, _ => none
  | count + 1, exponent =>
    match onGrid bits num den exponent with
    | some d => some d
    | none => firstOnGrids bits num den count (exponent - 1)

/-- The decimal expansion of `mantissa * 2 ^ exponent`, which always ends. -/
def exact (mantissa : Nat) (exponent : Int) : Decimal :=
  ⟨mantissa * 2 ^ exponent.toNat * 5 ^ (-exponent).toNat, min exponent 0⟩

/-- The decimal with the fewest digits that reads back as `mantissa * 2 ^ exponent`, and of those the one
nearest to it. Seventeen digits always suffice; the full expansion stands behind them. -/
def shortest (mantissa : Nat) (exponent : Int) : Decimal :=
  let (num, den) := Binary64.fraction mantissa exponent
  if num = 0 then ⟨0, 0⟩
  else
    let bits := Binary64.nearestBits num den
    (firstOnGrids bits num den 17 (floorLog10 num den)).getD (exact mantissa exponent).normalized

end Decimal

end NamedExpr
