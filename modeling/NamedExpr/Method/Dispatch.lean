import NamedExpr.Hypotenuse
import NamedExpr.Operator.Apply
import NamedExpr.Method
/-!
# Calling methods

A call is dispatched on the name of the method, its receiver and the number of its arguments. Arguments
are not evaluated yet: the outcome is settled without them, or the call asks for the value of one and goes
on with it. A receiver or an argument is missing if it is a name that is bound to nothing, where that is
tolerated.
-/

namespace NamedExpr

/-- What a call comes to: an outcome, or a question for the value of the argument at a place and what the
call comes to with it. A call may ask for any argument, and as often as it likes. -/
inductive Dispatch where
  | settled (outcome : Except Failure Resolved)
  | awaits (place : Nat) (resume : Option Resolved → Dispatch)

/-- An integer or a float. -/
inductive Number where
  | int (n : Int)
  | float (x : Float)

namespace Number

/-- The number as a float. -/
def toFloat : Number → Float
  | .int n => Binary64.ofInt n
  | .float x => x

/-- The number as a value. -/
def toValue : Number → Value
  | .int n => .int n
  | .float x => .float x

end Number

namespace Value

/-- The number that a value is. -/
def toNumber? : Value → Option Number
  | .int n => some (.int n)
  | .float x => some (.float x)
  | _ => Option.none

end Value

namespace Resolved

/-- What a missing operand counts as where its value is needed. -/
def absent : Resolved := ⟨.none, true⟩

/-- The content of an option; a missing operand has none. -/
def content? : Option Resolved → Option Value
  | none => none
  | some r => if r.value.isNone then none else some r.value

end Resolved

namespace Dispatch

/-- Carries a call out where `ask` finds the value of the argument at a place, every time that the call asks. -/
def run {m : Type → Type} [Monad m] [MonadLiftT (Except Failure) m] (ask : Nat → m (Option Resolved)) :
    Dispatch → m Resolved
  | .settled outcome => liftM outcome
  | .awaits place resume => do
    let argument ← ask place
    run ask (resume argument)

/-- A call that asks for the first argument and is settled by it. -/
def first (resume : Option Resolved → Except Failure Resolved) : Dispatch :=
  .awaits 0 fun argument => .settled (resume argument)

/-- An outcome without failure. -/
def value (v : Value) (optional : Bool := false) : Dispatch := .settled (.ok ⟨v, optional⟩)

/-- A call that fails. -/
def fail (failure : Failure) : Dispatch := .settled (.error failure)

/-- A call that takes `expected` arguments and is given `given`. -/
def withArity (name : String) (expected given : Nat) (d : Dispatch) : Dispatch :=
  if given = expected then d else fail (.arity name expected given)

/-- A call that computes a value from the value of its argument. -/
def fromArgument (f : Value → Except Failure Value) : Dispatch :=
  first fun argument => (f (argument.getD .absent).value).map fun v => ⟨v, false⟩

/-- A call that gives its argument. -/
def argument (optional : Bool) : Dispatch :=
  first fun argument => .ok ⟨(argument.getD .absent).value, optional⟩

end Dispatch

namespace Combinator

open Dispatch

/-- The one content of two options. -/
def exclusive (mine theirs : Option Value) : Except Failure Resolved :=
  match mine, theirs with
  | some a, some b => .error (.ambiguousXor a b)
  | some a, none => .ok ⟨a, true⟩
  | none, some b => .ok ⟨b, true⟩
  | none, none => .ok .absent

/-- Calls a combinator. -/
def call (c : Combinator) (receiver : Option Resolved) (given : Nat) : Dispatch :=
  match c with
  | .and =>
    withArity c.name 1 given <|
      match receiver with
      | none => fail .missingReceiver
      | some r => if r.value.isNone then value .none true else argument true
  | .or =>
    withArity c.name 1 given <|
      match Resolved.content? receiver with
      | some v => value v true
      | none => argument true
  | .xor =>
    withArity c.name 1 given <|
      first fun other => exclusive (Resolved.content? receiver) (Resolved.content? other)
  | .unwrap =>
    withArity c.name 0 given <|
      match Resolved.content? receiver with
      | some v => value v
      | none => fail .unwrapOfNone
  | .unwrapOr =>
    withArity c.name 1 given <|
      match Resolved.content? receiver with
      | some v => value v
      | none => argument false
  | .isNone => withArity c.name 0 given (value (.bool (Resolved.content? receiver).isNone))
  | .isSome => withArity c.name 0 given (value (.bool (Resolved.content? receiver).isSome))
  | .isOption => withArity c.name 0 given (value (.bool (receiver.getD .absent).optional))

end Combinator

namespace UnaryFunction

/-- The function of one number. -/
def eval : UnaryFunction → Float → Float
  | .fract => Elementary.fract
  | .recip => fun x => 1.0 / x
  | .sqrt => Float.sqrt
  | .cbrt => Float.cbrt
  | .exp => Float.exp
  | .exp2 => Float.exp2
  | .expLessOne => Elementary.expLessOne
  | .ln => Float.log
  | .lnOnePlus => Elementary.lnOnePlus
  | .log2 => Float.log2
  | .log10 => Float.log10
  | .toDegrees => Elementary.toDegrees
  | .toRadians => Elementary.toRadians
  | .sin => Float.sin
  | .cos => Float.cos
  | .tan => Float.tan
  | .asin => Float.asin
  | .acos => Float.acos
  | .atan => Float.atan
  | .sinh => Float.sinh
  | .cosh => Float.cosh
  | .tanh => Float.tanh
  | .asinh => Float.asinh
  | .acosh => Float.acosh
  | .atanh => Float.atanh

end UnaryFunction

namespace BinaryFunction

/-- The function of two numbers. -/
def eval : BinaryFunction → Float → Float → Float
  | .atan2 => Float.atan2
  | .hypot => Hypotenuse.length
  | .power => Elementary.power
  | .logBase => Elementary.logBase

end BinaryFunction

namespace NumericMethod

open Dispatch

/-- Rounds a number to an integer value. -/
def roundTo (direction : Rounding) : Number → Except Failure Value
  | .int n => .ok (.int n)
  | .float x =>
    match direction.toInt? x with
    | none => .error (.noIntegerValue direction.name x)
    | some n => if fits64 n then Value.ofInt n else .error (.roundedOutOfRange direction.name n)

/-- The magnitude of a number. -/
def magnitude : Number → Except Failure Value
  | .int n => Value.checkedInt n.natAbs
  | .float x => .ok (.float x.abs)

/-- The sign of a number. -/
def sign : Number → Except Failure Value
  | .int n => Value.ofInt n.sign
  | .float x => .ok (.float (Elementary.signum x))

/-- Calls `f` with the argument as a number. -/
def withNumber (name : String) (v : Value) (f : Number → Except Failure Value) : Except Failure Value :=
  match v.toNumber? with
  | some y => f y
  | none => .error (.notANumber name v.variant)

/-- The greater or the lesser of two numbers: an integer if both are, else a float. -/
def extreme (onInts : Int → Int → Int) (onFloats : Float → Float → Float) (x y : Number) :
    Except Failure Value :=
  match x, y with
  | .int a, .int b => Value.ofInt (onInts a b)
  | _, _ => .ok (.float (onFloats x.toFloat y.toFloat))

/-- A number to an integer power. -/
def integerPower (x : Number) : Value → Except Failure Value
  | .int n => .ok (.float (Elementary.power x.toFloat (Binary64.ofInt n)))
  | v => .error (.exponentNotInteger v.variant)

/-- Calls a method of a number. -/
def call (m : NumericMethod) (receiver : Number) (given : Nat) : Dispatch :=
  match m with
  | .rounding direction =>
    withArity m.name 0 given (.settled ((roundTo direction receiver).map fun v => ⟨v, false⟩))
  | .abs => withArity m.name 0 given (.settled ((magnitude receiver).map fun v => ⟨v, false⟩))
  | .signum => withArity m.name 0 given (.settled ((sign receiver).map fun v => ⟨v, false⟩))
  | .max =>
    withArity m.name 1 given <| fromArgument fun v =>
      withNumber m.name v (extreme Max.max Elementary.maximum receiver)
  | .min =>
    withArity m.name 1 given <| fromArgument fun v =>
      withNumber m.name v (extreme Min.min Elementary.minimum receiver)
  | .powi => withArity m.name 1 given (fromArgument (integerPower receiver))
  | .unary function => withArity m.name 0 given (value (.float (function.eval receiver.toFloat)))
  | .binary function =>
    withArity m.name 1 given <| fromArgument fun v =>
      withNumber m.name v fun y => .ok (.float (function.eval receiver.toFloat y.toFloat))

end NumericMethod

namespace Method

open Dispatch

/-- Calls a method that needs the value of its receiver. -/
def callOn (m : Option Method) (name : String) (receiver : Value) (given : Nat) : Dispatch :=
  match m with
  | some (.isVariant v) => withArity name 0 given (value (.bool (receiver.variant == v)))
  | some .isSame => withArity name 1 given (fromArgument fun other => .ok (.bool (receiver.isSame other)))
  | some (.numeric m) =>
    match receiver.toNumber? with
    | some x => m.call x given
    | none => fail (.unknownMethod receiver.variant name)
  | _ => fail (.unknownMethod receiver.variant name)

/-- Dispatches the call of a name on a receiver with a number of arguments. -/
def dispatch (name : String) (receiver : Option Resolved) (given : Nat) : Dispatch :=
  match ofName? name with
  | some (.combinator c) => c.call receiver given
  | m =>
    match receiver with
    | none => fail (.unboundReceiver name)
    | some r => callOn m name r.value given

end Method

/-- A call of which at most the first argument is asked for, and that once. -/
inductive Reply where
  | settled (outcome : Except Failure Resolved)
  | awaits (resume : Option Resolved → Except Failure Resolved)

namespace Reply

/-- The reply as a call that may ask for more. -/
def toDispatch : Reply → Dispatch
  | .settled outcome => .settled outcome
  | .awaits resume => .first resume

/-- A call that is given one value for whatever it asks. -/
def ofDispatch : Dispatch → Reply
  | .settled outcome => .settled outcome
  | .awaits _ resume => .awaits fun argument => (resume argument).run fun _ => .ok argument

end Reply

namespace Method

/-- Calls the method of a name for one who has a value for the first argument. -/
def call (name : String) (receiver : Option Resolved) (given : Nat) : Reply :=
  .ofDispatch (dispatch name receiver given)

end Method

end NamedExpr
