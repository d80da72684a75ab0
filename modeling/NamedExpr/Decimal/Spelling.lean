import NamedExpr.Decimal
import NamedExpr.Text.Digit
/-!
# Decimals as they are spelled

A number is spelled as a whole part, and perhaps a fraction and an exponent. Each part is the longest one that
there is at the start of a text, and together they write a decimal.
-/

namespace NamedExpr

namespace Word

open Text

/-- Whether a row of digits goes on with this character; underscores may stand among digits. -/
def isDigitOrGap (c : Char) : Bool := isDigit c || c == '_'

/-- The number of digits in a row, without its underscores. -/
def digitCount (digits : List Char) : Nat := (digits.filter (· ≠ '_')).length

/-- The value of a row of digits without its underscores. -/
def digitsValue (digits : List Char) : Nat := number (digits.filter (· ≠ '_'))

/-- The sign of an exponent. -/
def signPart : List Char → List Char
  | '+' :: _ => ['+']
  | '-' :: _ => ['-']
  | _ => []

/-- The exponent of a number: `e`, a sign that may be missing, and digits. -/
def exponentPart : List Char → List Char
  | [] => []
  | c :: rest =>
    if c = 'e' ∨ c = 'E' then
      let sign := signPart rest
      let digits := (rest.drop sign.length).takeWhile isDigit
      if digits.isEmpty then [] else c :: (sign ++ digits)
    else []

/-- The fraction of a number: a point and digits, of which the first is no underscore. -/
def fractionPart : List Char → List Char
  | '.' :: c :: rest => if isDigit c then '.' :: c :: rest.takeWhile isDigitOrGap else []
  | _ => []

/-- The value of an exponent. -/
def exponentValue : List Char → Int
  | _ :: '-' :: digits => -(number digits : Int)
  | _ :: '+' :: digits => number digits
  | _ :: digits => number digits
  | [] => 0

/-- The decimal that a whole part, a fraction and an exponent write. -/
def decimal (whole fraction exponent : List Char) : Decimal :=
  let places := (fraction.drop 1).filter (· ≠ '_')
  ⟨digitsValue (whole ++ places), exponentValue exponent - places.length⟩

end Word

namespace Decimal

/-- The decimal that a text writes: a whole part, and perhaps a fraction and an exponent. -/
def ofText (text : List Char) : Decimal :=
  let whole := text.takeWhile Word.isDigitOrGap
  let afterWhole := text.drop whole.length
  let fraction := Word.fractionPart afterWhole
  Word.decimal whole fraction (Word.exponentPart (afterWhole.drop fraction.length))

end Decimal

end NamedExpr
