import NamedExpr.Text.Blank
import NamedExpr.Text.Digit
/-!
# Integers in arguments

An integer given as an argument may have white space around it, a sign, and underscores between digits.
-/

namespace NamedExpr

namespace Text

/-- White space around an integer: that of a text, less the information separators. -/
def isIntegerSpace (c : Char) : Bool :=
  if c.toNat < 128 then c == ' ' || (9 ≤ c.toNat && c.toNat ≤ 13) else isBlank c

/-- The digits of a row in which single underscores may stand between digits. -/
def separatedDigits? : List Char → Option (List Char)
  | [] => none
  | [c] => if isDigit c then some [c] else none
  | c :: '_' :: rest => if isDigit c then (separatedDigits? rest).map (c :: ·) else none
  | c :: rest => if isDigit c then (separatedDigits? rest).map (c :: ·) else none

/-- The integer that a row of digits writes, unless they are too many. -/
def wholeNumber? (cs : List Char) : Option Int :=
  ((separatedDigits? cs).filter fun digits => digits.length ≤ maxDigits).map fun digits => (number digits : Int)

/-- The integer that a text writes. -/
def integer? (cs : List Char) : Option Int :=
  let inner := ((cs.dropWhile isIntegerSpace).reverse.dropWhile isIntegerSpace).reverse
  match inner with
  | '-' :: digits => (wholeNumber? digits).map fun n => -n
  | '+' :: digits => wholeNumber? digits
  | digits => wholeNumber? digits

end Text

end NamedExpr
