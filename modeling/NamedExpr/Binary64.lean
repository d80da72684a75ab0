/-!
# Binary64 numbers as exact fractions

A binary64 number is `± mantissa * 2 ^ exponent` with a mantissa below `2 ^ 53`. `parts` takes a number
apart, `nearest` goes back: it rounds any fraction to the nearest number, a tie to the even mantissa.
Everything exact in this library (reading decimals, writing them, rounding to integers, remainders) is
natural-number arithmetic between these two functions.
-/

namespace NamedExpr

-- Powers are those of the core library, also beside modules that bring others.
attribute [local instance (high)] instPowNat

/-- What a binary64 pattern stands for; `finite` is `± mantissa * 2 ^ exponent`. -/
inductive Parts where
  | notANumber
  | infinite (negative : Bool)
  | finite (negative : Bool) (mantissa : Nat) (exponent : Int)
  deriving Repr, DecidableEq

namespace Binary64

/-- The pattern of positive infinity, above every finite magnitude. -/
def infinityBits : Nat := 2047 * 2 ^ (52 : Nat)

/-- The sign bit, which negative zero carries too. -/
def isNegative (x : Float) : Bool := decide (2 ^ (63 : Nat) ≤ x.toBits.toNat)

/-- Takes a number apart. Zeros are finite with mantissa `0`. -/
def parts (x : Float) : Parts :=
  let bits := x.toBits.toNat % 2 ^ (63 : Nat)
  let biased : Nat := bits / 2 ^ (52 : Nat)
  let fraction := bits % 2 ^ (52 : Nat)
  if biased = 2047 then
    if fraction = 0 then .infinite (isNegative x) else .notANumber
  else if biased = 0 then
    .finite (isNegative x) fraction (-1074)
  else
    .finite (isNegative x) (2 ^ (52 : Nat) + fraction) ((biased : Int) - 1075)

/-- `num / den` rounded to a natural number, a half to the even neighbour. -/
def roundEven (num den : Nat) : Nat :=
  let quotient := num / den
  let rest := num % den
  if 2 * rest < den then quotient
  else if den < 2 * rest then quotient + 1
  else quotient + quotient % 2

/-- The greatest `e` with `2 ^ e ≤ num / den`, for positive `num` and `den`. -/
def floorLog2 (num den : Nat) : Int :=
  let guess : Int := (num.log2 : Int) - den.log2
  if den * 2 ^ guess.toNat ≤ num * 2 ^ (-guess).toNat then guess else guess - 1

/-- The exponent of the last mantissa bit of the numbers around `num / den`. -/
def gridExponent (num den : Nat) : Int := max (-1074) (floorLog2 num den - 52)

/-- The pattern of the number nearest to the positive fraction `num / den`. A mantissa that rounds up to
`2 ^ 53` carries into the exponent field, and a carry past the largest finite number is infinity. -/
def nearestBits (num den : Nat) : Nat :=
  let grid := gridExponent num den
  let mantissa := roundEven (num * 2 ^ (-grid).toNat) (den * 2 ^ grid.toNat)
  min infinityBits ((grid + 1074).toNat * 2 ^ (52 : Nat) + mantissa)

/-- The number with the given sign whose magnitude is nearest to `num / den`. -/
def nearest (negative : Bool) (num den : Nat) : Float :=
  let sign := if negative then 2 ^ (63 : Nat) else 0
  Float.ofBits (UInt64.ofNat (sign + if num = 0 then 0 else nearestBits num den))

/-- The magnitude `mantissa * 2 ^ exponent` as a fraction. -/
def fraction (mantissa : Nat) (exponent : Int) : Nat × Nat :=
  (mantissa * 2 ^ exponent.toNat, 2 ^ (-exponent).toNat)

/-- `± mantissa * 2 ^ exponent`, rounded if it is no binary64 number. -/
def ofParts (negative : Bool) (mantissa : Nat) (exponent : Int) : Float :=
  let (num, den) := fraction mantissa exponent
  nearest negative num den

/-- The number nearest to an integer. -/
def ofInt (n : Int) : Float := nearest (decide (n < 0)) n.natAbs 1

/-- Positive infinity. -/
def infinity : Float := Float.ofBits (UInt64.ofNat infinityBits)

/-- The number that is none. -/
def notANumber : Float := Float.ofBits (UInt64.ofNat (infinityBits + 2 ^ (51 : Nat)))

/-- The magnitude of `x` under the sign of `y`. -/
def copySign (x y : Float) : Float := if isNegative y then -x.abs else x.abs

end Binary64

end NamedExpr
