import NamedExpr.Binary64
/-!
# Logarithm and exponential in fixed point

`ln (1 + x)` and `exp x - 1` near zero lose their digits if they are computed as they are written. Here
they are summed as series over numbers with 400 binary places, and the result is rounded once.
-/

namespace NamedExpr

-- Powers are those of the core library, also beside modules that bring others.
attribute [local instance (high)] instPowNat

namespace FixedPoint

/-- The number of binary places. -/
def places : Nat := 400

/-- The number one. -/
def one : Int := 2 ^ places

/-- The product of two numbers, rounded down. -/
def mul (a b : Int) : Int := a * b / one

/-- The quotient of two integers as a number, rounded down. -/
def ratio (num den : Int) : Int := num * one / den

/-- `power / odd + power * square / (odd + 2) + …`, as many terms as `count` says. -/
def oddSeries (square : Int) : Nat → Int → Int → Int
  | 0, _, _ => 0
  | count + 1, odd, power => power / odd + oddSeries square count (odd + 2) (mul power square)

/-- The inverse hyperbolic tangent, for numbers below one third. -/
def atanh (t : Int) : Int := oddSeries (mul t t) 130 1 t

/-- The natural logarithm of two. -/
def lnTwo : Int := 2 * atanh (ratio 1 3)

/-- The natural logarithm of a positive fraction, which is brought between one and two by halving or
doubling and then given by the inverse hyperbolic tangent. -/
def ln (num den : Nat) : Int :=
  let scale := Binary64.floorLog2 num den
  let a : Int := num * 2 ^ (-scale).toNat
  let b : Int := den * 2 ^ scale.toNat
  scale * lnTwo + 2 * atanh (ratio (a - b) (a + b))

/-- `term + term * x / index + …`, as many terms as `count` says. -/
def powerSeries (x : Int) : Nat → Int → Int → Int
  | 0, _, _ => 0
  | count + 1, index, term => term + powerSeries x count (index + 1) (mul term x / index)

/-- A number squared a number of times. -/
def squared : Nat → Int → Int
  | 0, x => x
  | count + 1, x => squared count (mul x x)

/-- The exponential of a number below `2 ^ 10` in magnitude, from that of its `2 ^ 18`-th part. -/
def exp (x : Int) : Int := squared 18 (powerSeries (x / 2 ^ (18 : Nat)) 50 1 one)

/-- The binary64 number nearest to a number. -/
def toFloat (x : Int) : Float := Binary64.nearest (decide (x < 0)) x.natAbs (2 ^ places)

/-- The fraction of a finite binary64 number, as a signed numerator and a denominator. -/
def fraction? (x : Float) : Option (Int × Nat) :=
  match Binary64.parts x with
  | .finite negative mantissa exponent =>
    let (num, den) := Binary64.fraction mantissa exponent
    some (if negative then -(num : Int) else num, den)
  | _ => none

end FixedPoint

end NamedExpr
