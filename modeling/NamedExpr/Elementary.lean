import NamedExpr.FixedPoint
import NamedExpr.Rounding
/-!
# Functions on binary64 numbers

The numeric functions of the expression language. An argument outside a function's domain gives a number
that is none, an overflow gives an infinity, and nothing here fails. Remainders and the sign of a power are
exact; most transcendental functions are those of the platform.
-/

namespace NamedExpr

-- Powers are those of the core library, also beside modules that bring others.
attribute [local instance (high)] instPowNat

namespace Elementary

open Binary64

/-- The remainder of a division that rounds toward zero; it has the sign of `x`. -/
def remainder (x y : Float) : Float :=
  match parts x, parts y with
  | .finite negative m₁ e₁, .finite _ m₂ e₂ =>
    if m₂ = 0 then notANumber
    else
      let grid := min e₁ e₂
      let rest := (m₁ * 2 ^ (e₁ - grid).toNat) % (m₂ * 2 ^ (e₂ - grid).toNat)
      ofParts negative rest grid
  | .finite .., .infinite _ => x
  | _, _ => notANumber

/-- The part of `x` after the point, with the sign of `x`. -/
def fract (x : Float) : Float :=
  match Rounding.trunc.toInt? x with
  | some n => x - ofInt n
  | none => x - x

/-- One with the sign of `x`. -/
def signum (x : Float) : Float := if x.isNaN then x else copySign 1.0 x

/-- The greater number; one that is no number gives way, and of equals the first is taken. -/
def maximum (x y : Float) : Float :=
  if x.isNaN then y else if y.isNaN then x else if y > x then y else x

/-- The lesser number; one that is no number gives way, and of equals the first is taken. -/
def minimum (x y : Float) : Float :=
  if x.isNaN then y else if y.isNaN then x else if y < x then y else x

/-- Whether a number is an odd integer. -/
def isOddInteger (y : Float) : Bool :=
  match parts y with
  | .finite _ mantissa exponent =>
    let (num, den) := fraction mantissa exponent
    num % den == 0 && num / den % 2 == 1
  | _ => false

/-- Whether a number is an integer. -/
def isInteger (y : Float) : Bool :=
  match parts y with
  | .finite _ mantissa exponent =>
    let (num, den) := fraction mantissa exponent
    num % den == 0
  | _ => false

/-- What keeps the platform from giving a power. -/
inductive PowerFault where
  /-- A zero to a negative power, or a negative number to one that is no integer. -/
  | domain
  /-- The power of two finite numbers lies beyond every finite number. -/
  | overflow
  deriving Repr, DecidableEq

/-- The power that `pow` gives for a number or, under an integer exponent, for its magnitude; the result is negative for a
negative base under an odd exponent. -/
def signedPower (pow : Float → Float → Float) (x y : Float) : Float :=
  if isNegative x && isInteger y then
    let magnitude := pow x.abs y
    if isOddInteger y then -magnitude else magnitude
  else pow x y

/-- The power that a platform gives which rounds as `pow` does. Two finite numbers that have no finite power have none
here, and so has a zero with a negative exponent. -/
def platformPower (pow : Float → Float → Float) (x y : Float) : Except PowerFault Float :=
  let result := signedPower pow x y
  if x == 0.0 then
    if y < 0.0 then .error .domain else .ok result
  else if x.isFinite && y.isFinite && !result.isFinite then
    .error (if result.isNaN then .domain else .overflow)
  else .ok result

/-- The power that `pow` gives, with a number in place of its faults: an overflow is an infinity, negative for a
negative base under an odd exponent, and a zero to a negative power is positive infinity whatever the signs. -/
def powerBy (pow : Float → Float → Except PowerFault Float) (x y : Float) : Float :=
  match pow x y with
  | .ok result => result
  | .error .overflow => if x < 0.0 && isOddInteger y then -infinity else infinity
  | .error .domain => if x == 0.0 then infinity else notANumber

/-- `x` to the power `y`. -/
def power (x y : Float) : Float := powerBy (platformPower Float.pow) x y

/-- Whether a number is so near to zero that `ln (1 + x)` and `exp x - 1` round to it. -/
def isTiny (x : Float) : Bool := x.abs < 1e-17

/-- The natural logarithm of `1 + x`. -/
def lnOnePlus (x : Float) : Float :=
  if x.isNaN || x < -1.0 then notANumber
  else if isTiny x then x
  else
    match FixedPoint.fraction? x with
    | none => x
    | some (num, den) =>
      let sum := (num + den).toNat
      if sum = 0 then -infinity else FixedPoint.toFloat (FixedPoint.ln sum den)

/-- The exponential of `x` less one. From 710 on it is infinite, and below -40 it rounds to minus one. -/
def expLessOne (x : Float) : Float :=
  if x.isNaN || isTiny x then x
  else if 710.0 < x then infinity
  else if x < -40.0 then -1.0
  else
    match FixedPoint.fraction? x with
    | none => x
    | some (num, den) => FixedPoint.toFloat (FixedPoint.exp (FixedPoint.ratio num den) - FixedPoint.one)

/-- The ratio of a circle's circumference to its diameter. -/
def pi : Float := Float.ofBits 0x400921FB54442D18

/-- An angle in degrees, given in radians. -/
def toDegrees (x : Float) : Float := x * (180.0 / pi)

/-- An angle in radians, given in degrees. -/
def toRadians (x : Float) : Float := x * (pi / 180.0)

/-- The logarithm of `x` to a base. -/
def logBase (x base : Float) : Float := Float.log x / Float.log base

end Elementary

end NamedExpr
