import NamedExpr.Text.Ranges
/-!
# White space

The white space of Unicode 14 together with the four information separators. It is what is cut off both
ends of a statement, a definition and the parts of a definition.
-/

namespace NamedExpr

namespace Text

/-- Switch points of the white-space characters. -/
def blankPoints : List Nat :=
  [9, 0xE, 0x1C, 0x21, 0x85, 0x86, 0xA0, 0xA1, 0x1680, 0x1681, 0x2000, 0x200B, 0x2028, 0x202A, 0x202F, 0x2030,
   0x205F, 0x2060, 0x3000, 0x3001]

/-- Whether a character is white space. -/
def isBlank (c : Char) : Bool := within blankPoints c.toNat

/-- A text without the white space at its ends. -/
def trimChars (cs : List Char) : List Char :=
  ((cs.dropWhile isBlank).reverse.dropWhile isBlank).reverse

/-- A string without the white space at its ends. -/
def trim (s : String) : String := String.ofList (trimChars s.toList)

end Text

end NamedExpr
