import NamedExpr.Elementary
import NamedExpr.Failure
/-!
# Applying operators

Which variants an operator takes, and what it makes of them. Integer results are exact and must have
64 bits; division rounds toward zero and a remainder has the sign of the dividend.
-/

namespace NamedExpr

namespace Value

/-- The value of an integer result, which must have 64 bits. -/
def checkedInt (n : Int) : Except Failure Value :=
  if fits64 n then ofInt n else .error (.integerOverflow n)

/-- `times` copies of a text put after another. -/
def copiesAfter (text : String) (acc : String) : Nat → String
  | 0 => acc
  | times + 1 => copiesAfter text (acc ++ text) times

/-- A text repeated a number of times, which may be negative and then counts as zero. -/
def repeated (text : String) (times : Int) : Except Failure Value :=
  if times ≤ 0 ∨ text.isEmpty then .ok (.str "")
  else if maxRepeatLength < text.length * times.toNat then .error .repeatTooLong
  else .ok (.str (copiesAfter text "" times.toNat))

end Value

namespace Operator

/-- Whether the operator may combine operands of these variants. -/
def permits (op : Operator) : Variant → Variant → Bool
  | .int, .int | .float, .float => op.isArithmetic || op.isEquality || op.isOrdering
  | .int, .str | .str, .int => op == .mul
  | .str, .str => op == .add || op.isEquality
  | .vec, .vec | .range, .range => op.isEquality
  | .bool, .bool => op.isEquality || op == .and || op == .or
  | _, _ => false

/-- The quotient of two integers: that of their magnitudes, rounded down, and negative if their signs differ. -/
def quotient (a b : Int) : Except Failure Int :=
  if b = 0 then .error .divisionByZero
  else
    let q := (a.natAbs : Int).fdiv b.natAbs
    .ok (if decide (a < 0) = decide (b < 0) then q else -q)

/-- What the quotient of two integers leaves of the first. The quotient may have more than 64 bits here. -/
def remainder (a b : Int) : Except Failure Int :=
  if b = 0 then .error .remainderByZero else (quotient a b).map fun q => a - b * q

/-- The result for two integers. -/
def onInts (op : Operator) (a b : Int) : Except Failure Value :=
  match op with
  | .add => Value.checkedInt (a + b)
  | .sub => Value.checkedInt (a - b)
  | .mul => Value.checkedInt (a * b)
  | .div => (quotient a b).bind Value.checkedInt
  | .rem => (remainder a b).bind Value.checkedInt
  | .gt => .ok (.bool (decide (b < a)))
  | .lt => .ok (.bool (decide (a < b)))
  | .ge => .ok (.bool (decide (b ≤ a)))
  | .le => .ok (.bool (decide (a ≤ b)))
  | .eq | .ne | .and | .or => .error (.misapplied op .int .int)

/-- The result of comparing the sizes of two floats, which must be numbers. -/
def comparison (x y : Float) (result : Bool) : Except Failure Value :=
  if x.isNaN || y.isNaN then .error (.unordered x y) else .ok (.bool result)

/-- The result for two floats. -/
def onFloats (op : Operator) (x y : Float) : Except Failure Value :=
  match op with
  | .add => .ok (.float (x + y))
  | .sub => .ok (.float (x - y))
  | .mul => .ok (.float (x * y))
  | .div => .ok (.float (x / y))
  | .rem => .ok (.float (Elementary.remainder x y))
  | .gt => comparison x y (decide (x > y))
  | .lt => comparison x y (decide (x < y))
  | .ge => comparison x y (decide (x ≥ y))
  | .le => comparison x y (decide (x ≤ y))
  | .eq | .ne | .and | .or => .error (.misapplied op .float .float)

/-- The result for operands that the operator permits, equality apart. -/
def compute (op : Operator) (left right : Value) : Except Failure Value :=
  match op, left, right with
  | _, .int a, .int b => op.onInts a b
  | _, .float x, .float y => op.onFloats x y
  | .mul, .int n, .str s => Value.repeated s n
  | .mul, .str s, .int n => Value.repeated s n
  | .add, .str s, .str t => .ok (.str (s ++ t))
  | .and, .bool a, .bool b => .ok (.bool (a && b))
  | .or, .bool a, .bool b => .ok (.bool (a || b))
  | _, _, _ => .error (.misapplied op left.variant right.variant)

/-- Applies the operator. -/
def apply (op : Operator) (left right : Value) : Except Failure Value :=
  if op.permits left.variant right.variant then
    match op with
    | .eq => .ok (.bool (left.equal right))
    | .ne => .ok (.bool (!left.equal right))
    | _ => op.compute left right
  else .error (.notPermitted op left.variant right.variant)

/-- The operator written with a symbol, which must be one. -/
def ofSymbol (s : String) : Except Failure Operator :=
  match ofSymbol? s with
  | some op => .ok op
  | none => .error (.unknownOperator s)

end Operator

namespace UnaryOperator

/-- Whether the operator takes an operand of this variant. -/
def permits : UnaryOperator → Variant → Bool
  | .neg, v => v.isNumber
  | .not, v => v == .bool

/-- Applies the operator. -/
def apply (op : UnaryOperator) (operand : Value) : Except Failure Value :=
  match op, operand with
  | .neg, .int n => Value.checkedInt (-n)
  | .neg, .float x => .ok (.float (-x))
  | .not, .bool b => .ok (.bool (!b))
  | _, _ => .error (.notPermittedUnary op operand.variant)

/-- The operator written with a symbol, which must be one. -/
def ofSymbol (s : String) : Except Failure UnaryOperator :=
  match ofSymbol? s with
  | some op => .ok op
  | none => .error (.unknownUnaryOperator s)

end UnaryOperator

end NamedExpr
