import NamedExpr.Text.Quoted
import NamedExpr.Token
import NamedExpr.Value
/-!
# Failures

Why a text cannot be read, an expression cannot be evaluated, or a statement cannot be run. A `Failure` is
the cause with its data; `kind` sorts the causes, `message` words them.
-/

namespace NamedExpr

-- Powers are those of the core library, also beside modules that bring others.
attribute [local instance (high)] instPowNat

/-- The sorts of failures. Those from `evaluation` on down to `depthLimit` say that an expression has no
value; the last six say that a building block was given something it cannot take. -/
inductive Kind where
  | parse
  | evaluation
  | unresolvedName
  | operandMismatch
  | unknownMethod
  | arityMismatch
  | indexOutOfRange
  | arithmeticFault
  | unwrapNone
  | ambiguousXor
  | noneInCollection
  | unsupportedSyntax
  | cyclicReference
  | depthLimit
  | badValue
  | missingKey
  | badNode
  | badIndex
  | badOperand
  | missingReceiver
  deriving Repr, DecidableEq

namespace Kind

/-- The name of a sort of failure, as it is logged. -/
def name : Kind → String
  | .parse => "ParseError"
  | .evaluation => "EvaluationError"
  | .unresolvedName => "UnresolvedName"
  | .operandMismatch => "OperandMismatch"
  | .unknownMethod => "UnknownMethod"
  | .arityMismatch => "ArityMismatch"
  | .indexOutOfRange => "IndexOutOfRange"
  | .arithmeticFault => "ArithmeticFault"
  | .unwrapNone => "UnwrapNone"
  | .ambiguousXor => "AmbiguousXor"
  | .noneInCollection => "NoneInCollection"
  | .unsupportedSyntax => "UnsupportedSyntax"
  | .cyclicReference => "CyclicReference"
  | .depthLimit => "RecursionLimitExceeded"
  | .badValue => "BadValue"
  | .missingKey => "MissingKey"
  | .badNode => "BadNode"
  | .badIndex => "BadIndex"
  | .badOperand => "BadOperand"
  | .missingReceiver => "MissingReceiver"

/-- Whether failures of this sort are reported in answer to a statement: it cannot be read, or is given a bad value. -/
def isReported : Kind → Bool
  | .parse | .badValue => true
  | _ => false

/-- Whether failures of this sort say that an expression has no value. -/
def isEvaluation : Kind → Bool
  | .parse | .badValue | .missingKey | .badNode | .badIndex | .badOperand | .missingReceiver => false
  | _ => true

end Kind

/-- The longest text that repetition may produce. -/
def maxRepeatLength : Nat := 2 ^ (24 : Nat)

/-- The causes of failure. -/
inductive Failure where
  /-- No word starts with this character. -/
  | illegalCharacter (c : Char) (position : Nat)
  /-- The text at `position` holds a backslash before this character. -/
  | unknownEscape (c : Char) (position : Nat)
  /-- The text at `position` ends in a backslash that stands before nothing. -/
  | danglingEscape (position : Nat)
  /-- The integer with this spelling is above `2 ^ 63 - 1`. -/
  | integerTooLarge (spelling : List Char) (position : Nat)
  /-- The integer at `position` is written with more digits than are read. -/
  | tooManyDigits (count position : Nat)
  /-- No expression goes on with this token. -/
  | unexpectedToken (token : Token)
  /-- An expression is not complete at the end of its text. -/
  | unexpectedEnd
  /-- The name is bound to no expression. -/
  | unresolvedName (name : String)
  | notPermitted (op : Operator) (left right : Variant)
  | notPermittedUnary (op : UnaryOperator) (operand : Variant)
  /-- The operator was to combine variants that it is not permitted for. -/
  | misapplied (op : Operator) (left right : Variant)
  /-- One of two numbers whose sizes are compared is none. -/
  | unordered (left right : Float)
  | integerOverflow (n : Int)
  | divisionByZero
  | remainderByZero
  | repeatTooLong
  | literalOutOfRange (n : Int)
  | rangeBounds (start stop : Variant)
  | notIndexable (target index : Variant)
  | indexOutOfRange (index : Int) (length : Nat)
  | sliceOutOfRange (start stop : Int) (length : Nat)
  | noneInCollection
  | fieldAccess (name : String)
  /-- Something that is no expression, as it is displayed, where one is evaluated. -/
  | notEvaluable (shown : String)
  | unknownLiteral (shown : String)
  | unknownFunction (name : String)
  | unknownMethod (receiver : Variant) (name : String)
  | unboundReceiver (name : String)
  | arity (name : String) (expected given : Nat)
  | notANumber (name : String) (argument : Variant)
  | exponentNotInteger (argument : Variant)
  | noIntegerValue (name : String) (x : Float)
  | roundedOutOfRange (name : String) (n : Int)
  | unwrapOfNone
  | ambiguousXor (left right : Value)
  /-- A name was met again while it was being resolved; the chain starts and ends with it. -/
  | cyclicReference (chain : List String)
  | depthExceeded (limit : Int)
  /-- The nesting limit of evaluation was reached. -/
  | nestingExhausted
  /-- The nesting limit was reached in evaluating this text. -/
  | nestsTooDeeply (source : String)
  | unknownOperator (symbol : String)
  | unknownUnaryOperator (symbol : String)
  /-- A chain does not have one operand more than operators. -/
  | malformedChain
  /-- Something that is no 64-bit integer, as it is displayed, where one is needed. -/
  | notInt64 (shown : String)
  /-- Something that is no expression, as it is displayed, where one is written. -/
  | notWritable (shown : String)
  /-- A method that needs the value of its receiver was called without one. -/
  | missingReceiver
  | notADefinition (text : String)
  | notDefined (name : String)
  | noEntry (name : String)

namespace Failure

/-- The sort of a failure. -/
def kind : Failure → Kind
  | .illegalCharacter .. | .unknownEscape .. | .integerTooLarge .. | .unexpectedToken _ | .unexpectedEnd =>
    .parse
  | .unresolvedName _ => .unresolvedName
  | .notPermitted .. | .notPermittedUnary .. | .unordered .. | .literalOutOfRange _ | .rangeBounds ..
  | .notIndexable .. | .notANumber .. | .exponentNotInteger _ => .operandMismatch
  | .integerOverflow _ | .divisionByZero | .remainderByZero | .repeatTooLong | .noIntegerValue ..
  | .roundedOutOfRange .. => .arithmeticFault
  | .indexOutOfRange .. | .sliceOutOfRange .. => .indexOutOfRange
  | .noneInCollection => .noneInCollection
  | .fieldAccess _ | .notEvaluable _ | .unknownLiteral _ => .unsupportedSyntax
  | .unknownFunction _ | .unknownMethod .. | .unboundReceiver _ => .unknownMethod
  | .arity .. => .arityMismatch
  | .unwrapOfNone => .unwrapNone
  | .ambiguousXor .. => .ambiguousXor
  | .cyclicReference _ => .cyclicReference
  | .depthExceeded _ => .depthLimit
  | .nestingExhausted | .nestsTooDeeply _ => .evaluation
  | .tooManyDigits .. | .unknownOperator _ | .unknownUnaryOperator _ | .malformedChain | .notInt64 _
  | .notADefinition _ | .notDefined _ => .badValue
  | .notWritable _ => .badNode
  | .danglingEscape _ => .badIndex
  | .misapplied .. => .badOperand
  | .missingReceiver => .missingReceiver
  | .noEntry _ => .missingKey

/-- The wording of a failure. -/
def message : Failure → String
  | .illegalCharacter c position => s!"Illegal character '{c}' at position {position}"
  | .unknownEscape c position => s!"Unknown escape '\\{c}' in string at position {position}"
  | .danglingEscape position => s!"Nothing follows the last '\\' in string at position {position}"
  | .integerTooLarge spelling position =>
    s!"Integer literal {String.ofList spelling} does not fit in 64 bits (position {position})"
  | .tooManyDigits count _ =>
    s!"Exceeds the limit ({Text.maxDigits} digits) for integer string conversion: value has {count} digits; " ++
      "use sys.set_int_max_str_digits() to increase the limit"
  | .unexpectedToken token => s!"Syntax error at '{token.lexeme.shown}' (position {token.position})"
  | .unexpectedEnd => "Syntax error at end of input"
  | .unresolvedName name => s!"Unresolved name: {name}"
  | .notPermitted op left right =>
    s!"Operator {op.symbol} not permitted for {left.name} and {right.name}"
  | .misapplied op left right => s!"Operator {op.symbol} applied to {left.name} and {right.name}"
  | .notPermittedUnary op operand => s!"Unary {op.symbol} not permitted for {operand.name}"
  | .unordered left right =>
    s!"No ordering between {Layout.literal.write left} and {Layout.literal.write right}"
  | .integerOverflow n => s!"Integer overflow: {n}"
  | .divisionByZero => "Integer division by zero"
  | .remainderByZero => "Integer remainder by zero"
  | .repeatTooLong => s!"Repeated string would exceed {maxRepeatLength} characters"
  | .literalOutOfRange n => s!"Integer literal out of range: {n}"
  | .rangeBounds start stop => s!"Range bounds must be integers, got {start.name} and {stop.name}"
  | .notIndexable target index => s!"Cannot index {target.name} with {index.name}"
  | .indexOutOfRange index length => s!"Index {index} out of range for length {length}"
  | .sliceOutOfRange start stop length => s!"Slice {start}..{stop} out of range for length {length}"
  | .noneInCollection => "None cannot be stored in a collection literal"
  | .fieldAccess name => s!"Field access is not supported: .{name}"
  | .notEvaluable shown => s!"Cannot evaluate node: {shown}"
  | .unknownLiteral shown => s!"Unknown literal: {shown}"
  | .unknownFunction name => s!"Unknown function: {name}()"
  | .unknownMethod receiver name => s!"Unknown method for {receiver.name}: {name}()"
  | .unboundReceiver name => s!"{name}() needs a bound receiver"
  | .arity name expected given => s!"{name}() takes {expected} argument(s), got {given}"
  | .notANumber name argument => s!"{name}() expects a number, got {argument.name}"
  | .exponentNotInteger argument => s!"powi() expects an integer exponent, got {argument.name}"
  | .noIntegerValue name x => s!"{name}() of {Layout.literal.write x} has no integer value"
  | .roundedOutOfRange name n => s!"{name}() result {n} does not fit in 64 bits"
  | .unwrapOfNone => "unwrap() on None"
  | .ambiguousXor left right => s!"xor() with two values: {left.render} and {right.render}"
  | .cyclicReference chain => "Cyclic reference: " ++ " -> ".intercalate chain
  | .depthExceeded limit => s!"Context references nest deeper than {limit}"
  | .nestingExhausted => "Expression nests too deeply"
  | .nestsTooDeeply source => s!"Expression nests too deeply: {Text.quoted source}"
  | .unknownOperator symbol => s!"{Text.quoted symbol} is not a valid Operator"
  | .unknownUnaryOperator symbol => s!"{Text.quoted symbol} is not a valid UnaryOperator"
  | .malformedChain => "Operand/operator chain is malformed"
  | .notInt64 shown => s!"Not a 64-bit integer: {shown}"
  | .notWritable shown => s!"Not a syntax node: {shown}"
  | .missingReceiver => "The receiver has no value"
  | .notADefinition text => s!"Expected NAME=EXPR, got {Text.quoted text}"
  | .notDefined name => s!"Not defined: {name}"
  | .noEntry name => Text.quoted name

end Failure

namespace Value

/-- An integer value; only 64-bit integers have one. -/
def ofInt (n : Int) : Except Failure Value :=
  if fits64 n then .ok (.int n) else .error (.notInt64 (toString n))

end Value

end NamedExpr
