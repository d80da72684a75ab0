import NamedExpr.Decimal.Spelling
/-!
# Layouts of floating-point text

The digits of a number are always the shortest that read back (`Decimal.shortest`). A `Layout` decides the
rest: when an exponent is written, whether a whole number keeps `.0`, and the names of the numbers that
have no digits. Values are displayed from the text of their literal: it is written out without its exponent
(`writtenOut`), and loses the zeros at the end of its fraction (`trimmed`).
-/

namespace NamedExpr

/-- How the digits of a number are set out. -/
structure Layout where
  /-- Numbers below `10 ^ k` have an exponent; `none` for never. -/
  exponentBelow : Option Int
  /-- Numbers from `10 ^ k` on have an exponent; `none` for never. -/
  exponentFrom : Option Int
  /-- Whole numbers written without an exponent end in `.0`. -/
  keepsPoint : Bool
  /-- The name of the number that is none. -/
  notANumber : String
  deriving Repr, DecidableEq

namespace Layout

/-- The layout without exponents, where a number has a point only if digits follow it. -/
def plain : Layout := ⟨none, none, false, "NaN"⟩

/-- The layout of literals in expressions and in messages: an exponent below `10 ^ -4` and from `10 ^ 16`
on, and a point in every number without one. -/
def literal : Layout := ⟨some (-4), some 16, true, "nan"⟩

/-- Whether a number whose first digit has the weight `10 ^ weight` is written with an exponent. -/
def writesExponent (l : Layout) (weight : Int) : Bool :=
  (match l.exponentBelow with | some k => decide (weight < k) | none => false) ||
    (match l.exponentFrom with | some k => decide (k ≤ weight) | none => false)

/-- The digits with a point after `point` of them, zeros filling the gap on either side. -/
def positional (keepsPoint : Bool) (digits : List Char) (point : Int) : List Char :=
  if point ≤ 0 then
    '0' :: '.' :: (List.replicate (-point).toNat '0' ++ digits)
  else if digits.length ≤ point.toNat then
    digits ++ List.replicate (point.toNat - digits.length) '0' ++ (if keepsPoint then ['.', '0'] else [])
  else
    digits.take point.toNat ++ '.' :: digits.drop point.toNat

/-- An exponent: its sign, and at least two digits. -/
def exponentText (weight : Int) : List Char :=
  let magnitude := Nat.toDigits 10 weight.natAbs
  'e' :: (if weight < 0 then '-' else '+') :: (List.replicate (2 - magnitude.length) '0' ++ magnitude)

/-- The first digit, a point before the others if there are any, and the exponent. -/
def scientific (digits : List Char) (weight : Int) : List Char :=
  match digits with
  | [] => exponentText weight
  | [d] => d :: exponentText weight
  | d :: rest => d :: '.' :: (rest ++ exponentText weight)

/-- The text of a decimal number without sign. -/
def magnitude (l : Layout) (d : Decimal) : List Char :=
  let digits := Nat.toDigits 10 d.digits
  let weight := d.point - 1
  if d.digits ≠ 0 ∧ l.writesExponent weight = true then scientific digits weight
  else positional l.keepsPoint digits d.point

/-- The text of a number. -/
def chars (l : Layout) (x : Float) : List Char :=
  match Binary64.parts x with
  | .notANumber => l.notANumber.toList
  | .infinite negative => if negative then ['-', 'i', 'n', 'f'] else ['i', 'n', 'f']
  | .finite negative mantissa exponent =>
    let text := l.magnitude (Decimal.shortest mantissa exponent)
    if negative then '-' :: text else text

/-- The text of a number as a string. -/
def write (l : Layout) (x : Float) : String := String.ofList (l.chars x)

/-- A decimal as it is written out: a zero has no zeros for its exponent. -/
def rescaled (d : Decimal) : Decimal := if d.digits = 0 ∧ 0 < d.exponent then ⟨0, 0⟩ else d

/-- The number that a literal writes, without an exponent. -/
def writtenOut : List Char → List Char
  | '-' :: magnitude => '-' :: plain.magnitude (rescaled (.ofText magnitude))
  | magnitude => plain.magnitude (rescaled (.ofText magnitude))

/-- A text without the zeros at the end of its fraction, and without a point that nothing follows. -/
def trimmed (text : List Char) : List Char :=
  if '.' ∈ text then ((text.reverse.dropWhile (· == '0')).dropWhile (· == '.')).reverse else text

/-- The text of a value that is a number. -/
def displayed (x : Float) : List Char :=
  match Binary64.parts x with
  | .finite .. => trimmed (writtenOut (literal.chars x))
  | _ => plain.chars x

/-- The text of a value that is a number, as a string. -/
def display (x : Float) : String := String.ofList (displayed x)

end Layout

end NamedExpr
