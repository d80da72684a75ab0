import NamedExpr.Value
import NamedExpr.Rounding
/-!
# Methods

The methods that values have: combinators of options, predicates on the variant of a value, and numeric
functions. A method is known by its name.
-/

namespace NamedExpr

/-- The methods that treat their receiver as an option. -/
inductive Combinator where
  | and
  | or
  | xor
  | unwrap
  | unwrapOr
  | isNone
  | isSome
  | isOption
  deriving Repr, DecidableEq

/-- The numeric functions of the receiver alone that give a float. -/
inductive UnaryFunction where
  | fract
  | recip
  | sqrt
  | cbrt
  | exp
  | exp2
  | expLessOne
  | ln
  | lnOnePlus
  | log2
  | log10
  | toDegrees
  | toRadians
  | sin
  | cos
  | tan
  | asin
  | acos
  | atan
  | sinh
  | cosh
  | tanh
  | asinh
  | acosh
  | atanh
  deriving Repr, DecidableEq

/-- The numeric functions of the receiver and one more number that give a float. -/
inductive BinaryFunction where
  | atan2
  | hypot
  | power
  | logBase
  deriving Repr, DecidableEq

/-- The methods of numbers. -/
inductive NumericMethod where
  | rounding (direction : Rounding)
  | abs
  | signum
  | max
  | min
  | powi
  | unary (function : UnaryFunction)
  | binary (function : BinaryFunction)
  deriving Repr, DecidableEq

/-- The methods. -/
inductive Method where
  | combinator (c : Combinator)
  | isVariant (v : Variant)
  | isSame
  | numeric (m : NumericMethod)
  deriving Repr, DecidableEq

namespace Combinator

/-- Every combinator. -/
def all : List Combinator := [.and, .or, .xor, .unwrap, .unwrapOr, .isNone, .isSome, .isOption]

/-- The name of a combinator. -/
def name : Combinator → String
  | .and => "and"
  | .or => "or"
  | .xor => "xor"
  | .unwrap => "unwrap"
  | .unwrapOr => "unwrap_or"
  | .isNone => "is_none"
  | .isSome => "is_some"
  | .isOption => "is_option"

/-- Whether the receiver may be a name that is bound to nothing. -/
def toleratesReceiver : Combinator → Bool
  | .or | .xor | .unwrapOr | .isNone | .isSome | .isOption => true
  | .and | .unwrap => false

/-- Whether the argument may be a name that is bound to nothing. -/
def toleratesArgument : Combinator → Bool
  | .xor => true
  | _ => false

end Combinator

namespace UnaryFunction

/-- Every function of one number. -/
def all : List UnaryFunction :=
  [.fract, .recip, .sqrt, .cbrt, .exp, .exp2, .expLessOne, .ln, .lnOnePlus, .log2, .log10, .toDegrees,
    .toRadians, .sin, .cos, .tan, .asin, .acos, .atan, .sinh, .cosh, .tanh, .asinh, .acosh, .atanh]

/-- The name of a function of one number. -/
def name : UnaryFunction → String
  | .fract => "fract"
  | .recip => "recip"
  | .sqrt => "sqrt"
  | .cbrt => "cbrt"
  | .exp => "exp"
  | .exp2 => "exp2"
  | .expLessOne => "exp_m1"
  | .ln => "ln"
  | .lnOnePlus => "ln_1p"
  | .log2 => "log2"
  | .log10 => "log10"
  | .toDegrees => "to_degrees"
  | .toRadians => "to_radians"
  | .sin => "sin"
  | .cos => "cos"
  | .tan => "tan"
  | .asin => "asin"
  | .acos => "acos"
  | .atan => "atan"
  | .sinh => "sinh"
  | .cosh => "cosh"
  | .tanh => "tanh"
  | .asinh => "asinh"
  | .acosh => "acosh"
  | .atanh => "atanh"

end UnaryFunction

namespace BinaryFunction

/-- Every function of two numbers. -/
def all : List BinaryFunction := [.atan2, .hypot, .power, .logBase]

/-- The name of a function of two numbers. -/
def name : BinaryFunction → String
  | .atan2 => "atan2"
  | .hypot => "hypot"
  | .power => "powf"
  | .logBase => "log"

end BinaryFunction

namespace NumericMethod

/-- Every method of numbers. -/
def all : List NumericMethod :=
  [.rounding .trunc, .rounding .floor, .rounding .ceil, .rounding .round, .abs, .signum, .max, .min, .powi]
    ++ UnaryFunction.all.map .unary ++ BinaryFunction.all.map .binary

/-- The name of a method of numbers. -/
def name : NumericMethod → String
  | .rounding direction => direction.name
  | .abs => "abs"
  | .signum => "signum"
  | .max => "max"
  | .min => "min"
  | .powi => "powi"
  | .unary function => function.name
  | .binary function => function.name

end NumericMethod

namespace Method

/-- The variants that have a predicate. -/
def tested : List Variant := [.bool, .int, .float, .str, .vec, .range]

/-- Every method. -/
def all : List Method :=
  Combinator.all.map .combinator ++ tested.map .isVariant ++ [.isSame] ++ NumericMethod.all.map .numeric

/-- The name of a method. -/
def name : Method → String
  | .combinator c => c.name
  | .isVariant .bool => "is_bool"
  | .isVariant .int => "is_int"
  | .isVariant .float => "is_float"
  | .isVariant .str => "is_str"
  | .isVariant .vec => "is_vec"
  | .isVariant .range => "is_range"
  | .isVariant .none => "is_none"
  | .isSame => "is_same"
  | .numeric m => m.name

/-- The method with a name. -/
def ofName? (s : String) : Option Method := all.find? fun m => m.name == s

/-- No two methods have one name. -/
theorem ofName?_name {m : Method} (h : m ∈ all) : ofName? m.name = some m := by
  have every : ∀ m ∈ all, ofName? m.name = some m := by decide
  exact every m h

/-- Whether a method's receiver may be a name that is bound to nothing. -/
def toleratesReceiver (name : String) : Bool :=
  match ofName? name with
  | some (.combinator c) => c.toleratesReceiver
  | _ => false

/-- Whether a method's argument may be a name that is bound to nothing. -/
def toleratesArgument (name : String) : Bool :=
  match ofName? name with
  | some (.combinator c) => c.toleratesArgument
  | _ => false

end Method

end NamedExpr
