import NamedExpr.Operator
import NamedExpr.Decimal.Layout
/-!
# Tokens

The words of an expression. A `Lexeme` is what a word means, a `Token` adds where it stands in its text.
-/

namespace NamedExpr

/-- The two kinds of brackets. -/
inductive Bracket where
  | round
  | square
  deriving Repr, DecidableEq

/-- The meaning of a word. `-` is the binary operator here, also where it is used as a sign. -/
inductive Lexeme where
  | integer (n : Nat)
  | float (x : Float)
  | text (s : String)
  | name (s : String)
  | boolean (b : Bool)
  | none
  | operator (op : Operator)
  | bang
  | ampersand
  | range (inclusive : Bool)
  | dot
  | pathSeparator
  | comma
  | opening (b : Bracket)
  | closing (b : Bracket)
  deriving DecidableEq

namespace Lexeme

/-- How a lexeme appears in a message: texts without quotes, truth values capitalised. -/
def shown : Lexeme → String
  | .integer n => toString n
  | .float x => Layout.literal.write x
  | .text s => s
  | .name s => s
  | .boolean true => "True"
  | .boolean false => "False"
  | .none => "None"
  | .operator op => op.symbol
  | .bang => "!"
  | .ampersand => "&"
  | .range true => "..="
  | .range false => ".."
  | .dot => "."
  | .pathSeparator => "::"
  | .comma => ","
  | .opening .round => "("
  | .opening .square => "["
  | .closing .round => ")"
  | .closing .square => "]"

end Lexeme

/-- A word of a text: its meaning, how it is written, the number of characters before it in its text, and
the number of its line. -/
structure Token where
  lexeme : Lexeme
  spelling : List Char
  position : Nat
  line : Nat
  deriving DecidableEq

end NamedExpr
