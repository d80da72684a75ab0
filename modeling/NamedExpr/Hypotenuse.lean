import NamedExpr.Binary64
/-!
# The length of the hypotenuse

The squares of two lengths must neither overflow nor vanish, and their sum must not lose the digits that
the root needs. So the lengths are scaled by a power of two, the squares are summed together with what
every addition loses, and the root is corrected by the difference of its own square from that sum. Lengths
below `2 ^ -1024` are scaled by division instead, because no power of two is large enough for them.
-/

namespace NamedExpr

namespace Hypotenuse

open Binary64

/-- What is lost in adding `term` to the greater number `sum`. -/
def lost (sum term : Float) : Float := (sum - (sum + term)) + term

/-- A number in two halves of at most twenty-six bits, the high one first. -/
def halves (x : Float) : Float × Float :=
  let spread := x * 134217729.0
  let high := spread - (spread - x)
  (high, x - high)

/-- A sum of squares, counted from one so that no term is greater than it, and what was lost in adding the
squares of high halves, the mixed products and the squares of low halves. -/
structure SquareSum where
  sum : Float
  high : Float
  mixed : Float
  low : Float

namespace SquareSum

/-- No square has been added. -/
def empty : SquareSum := ⟨1.0, 0.0, 0.0, 0.0⟩

/-- Adds the square of a high half. -/
def addHigh (s : SquareSum) (term : Float) : SquareSum :=
  { s with sum := s.sum + term, high := s.high + lost s.sum term }

/-- Adds twice the product of two halves. -/
def addMixed (s : SquareSum) (term : Float) : SquareSum :=
  { s with sum := s.sum + term, mixed := s.mixed + lost s.sum term }

/-- Adds the square of a low half. -/
def addLow (s : SquareSum) (term : Float) : SquareSum :=
  { s with sum := s.sum + term, low := s.low + lost s.sum term }

/-- Adds the square of a length of at most one. The square of its low half is too small to change the sum
and is kept among what was lost. -/
def addSquare (s : SquareSum) (x : Float) : SquareSum :=
  let (high, low) := halves x
  let s := (s.addHigh (high * high)).addMixed (2.0 * high * low)
  { s with low := s.low + low * low }

/-- Takes the square of a root away. -/
def subtractSquare (s : SquareSum) (root : Float) : SquareSum :=
  let (high, low) := halves root
  ((s.addHigh (-high * high)).addMixed (-2.0 * high * low)).addLow (-low * low)

/-- The sum of the squares. -/
def total (s : SquareSum) : Float := s.sum - 1.0 + (s.high + s.mixed + s.low)

end SquareSum

/-- The exponent `k` for which a number lies at or above `2 ^ (k - 1)` and below `2 ^ k`. -/
def binaryExponent (x : Float) : Int :=
  match parts x with
  | .finite _ mantissa exponent => exponent + mantissa.log2 + 1
  | _ => 0

/-- The hypotenuse of two lengths, each of which `scale` makes at most one. -/
def scaled (scale x y : Float) : Float :=
  let squares := (SquareSum.empty.addSquare (x * scale)).addSquare (y * scale)
  let root := squares.total.sqrt
  (root + (squares.subtractSquare root).total / (2.0 * root)) / scale

/-- The hypotenuse of two lengths of which `greatest` is the greater. -/
def divided (greatest x y : Float) : Float :=
  let add (s : SquareSum) (x : Float) : SquareSum := s.addHigh (x / greatest * (x / greatest))
  let squares := add (add .empty x) y
  greatest * (squares.sum - 1.0 + squares.high).sqrt

/-- The length of the hypotenuse over two sides, whose signs do not count. It is infinite over an infinite
side, even if the other is no number. -/
def length (x y : Float) : Float :=
  match parts x, parts y with
  | .infinite _, _ | _, .infinite _ => infinity
  | .finite _ m₁ _, .finite _ m₂ _ =>
    let greatest := if x.abs < y.abs then y.abs else x.abs
    let exponent := binaryExponent greatest
    if m₁ = 0 ∧ m₂ = 0 then 0.0
    else if -1023 ≤ exponent then scaled (ofParts false 1 (-exponent)) x.abs y.abs
    else divided greatest x.abs y.abs
  | _, _ => notANumber

end Hypotenuse

end NamedExpr
