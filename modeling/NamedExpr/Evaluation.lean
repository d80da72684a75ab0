import NamedExpr.Bindings
import NamedExpr.Chain
import NamedExpr.Expr
import NamedExpr.Method.Dispatch
/-!
# Evaluating expressions

An expression is evaluated in a scope of named expressions. A name stands for its expression, evaluated
afresh each time; a name that is met while it is being resolved is a cycle, and `maxDepth` bounds how many
names may be in resolution at once.

`step` evaluates an expression given a way to evaluate those inside it, wherever failures can occur; `resolve`
closes the recursion with a budget for how deep evaluations may stand in one another. `Scope.nestingBound` is
a budget that no evaluation exhausts, and `evaluate` uses it.
-/

namespace NamedExpr

/-- What names stand for. A name may be declared without an expression: it is unresolved then, even where
a name that is not declared at all is tolerated. -/
structure Scope where
  entries : Bindings (Option Expr)
  maxDepth : Int

/-- What evaluating an expression comes to. -/
abbrev Outcome := Except Failure Resolved

namespace Evaluation

/-- The value of a literal. -/
def literal : Literal → Outcome
  | .none => .ok ⟨.none, true⟩
  | .bool b => .ok ⟨.bool b, false⟩
  | .int n =>
    if fits64 n then (Value.ofInt n).map fun v => ⟨v, false⟩ else .error (.literalOutOfRange n)
  | .float x => .ok ⟨.float x, false⟩
  | .str s => .ok ⟨.str s, false⟩
  | .unknown shown => .error (.unknownLiteral shown)

/-- A value that comes from no option. -/
def plain (v : Except Failure Value) : Outcome := v.map fun v => ⟨v, false⟩

/-- The names from the one that closes a cycle up to it again. The names in resolution stand innermost
first. -/
def cycle (name : String) (resolving : List String) : List String :=
  name :: (resolving.takeWhile (· ≠ name)).reverse ++ [name]

/-- The integers of a range. -/
def range (start stop : Value) (inclusive : Bool) : Except Failure Value :=
  match start, stop with
  | .int a, .int b =>
    if inclusive then
      if fits64 (b + 1) then .ok (.range a (b + 1)) else .error (.integerOverflow (b + 1))
    else .ok (.range a b)
  | _, _ => .error (.rangeBounds start.variant stop.variant)

/-- An element of a vector, or a part of a text. -/
def index (target place : Value) : Except Failure Value :=
  match target, place with
  | .vec items, .int i =>
    if 0 ≤ i then
      match items[i.toNat]? with
      | some item => .ok item
      | none => .error (.indexOutOfRange i items.length)
    else .error (.indexOutOfRange i items.length)
  | .str s, .range start stop =>
    if 0 ≤ start ∧ start ≤ stop ∧ stop ≤ s.length then
      .ok (.str (String.ofList ((s.toList.take stop.toNat).drop start.toNat)))
    else .error (.sliceOutOfRange start stop s.length)
  | _, _ => .error (.notIndexable target.variant place.variant)

/-- The operators of a run. -/
def operators : List String → Except Failure (List Operator)
  | [] => .ok []
  | symbol :: rest => do
    let op ← Operator.ofSymbol symbol
    let ops ← operators rest
    .ok (op :: ops)

section

variable {m : Type → Type} [Monad m] [MonadLiftT (Except Failure) m]

/-- Evaluation ends with a failure. -/
def fail {α : Type} (failure : Failure) : m α := liftM (Except.error failure : Except Failure α)

/-- The value of a name: that of its expression, in which the name counts as being resolved. -/
def name (scope : Scope) (go : List String → Expr → m Resolved) (resolving : List String) (n : String) : m Resolved :=
  match scope.entries.get? n with
  | some (some e) =>
    if n ∈ resolving then fail (.cyclicReference (cycle n resolving))
    else if scope.maxDepth ≤ resolving.length then fail (.depthExceeded scope.maxDepth)
    else go (n :: resolving) e
  | _ => fail (.unresolvedName n)

variable (go : Expr → m Resolved)

/-- The values of operands, from the left. -/
def values : List Expr → m (List Value)
  | [] => pure []
  | e :: rest => do
    let first ← go e
    let others ← values rest
    pure (first.value :: others)

/-- The elements of a vector, from the left. An option without content cannot be one. -/
def elements : List Expr → m (List Value)
  | [] => pure []
  | e :: rest => do
    let first ← go e
    if first.value.isNone then fail .noneInCollection
    else do
      let others ← elements rest
      pure (first.value :: others)

/-- The value of an operand that is not missing. -/
def present (e : Expr) : m (Option Resolved) := do
  let r ← go e
  pure (some r)

/-- The value of an operand that may be missing: a name that is not declared. -/
def tolerant (scope : Scope) : Expr → m (Option Resolved)
  | .path segments =>
    if scope.entries.contains (Expr.pathName segments) then present go (.path segments) else pure none
  | e => present go e

/-- The value of an operand that may be missing if `tolerated`. -/
def operand (scope : Scope) (tolerated : Bool) (e : Expr) : m (Option Resolved) :=
  if tolerated then tolerant go scope e else present go e

/-- A call of a method. The receiver comes first, an argument whenever the call asks for it. -/
def methodCall (scope : Scope) (receiver : Expr) (method : String) (args : List Expr) : m Resolved := do
  let receiver ← operand go scope (Method.toleratesReceiver method) receiver
  (Method.dispatch method receiver args.length).run fun place =>
    match args[place]? with
    | some argument => operand go scope (Method.toleratesArgument method) argument
    | none => pure none

/-- A call of a function; the only one makes an option of its argument. -/
def call (function : String) (args : List Expr) : m Resolved :=
  match args with
  | [content] =>
    if function = "Some" then do
      let r ← go content
      pure ⟨r.value, true⟩
    else fail (.unknownFunction function)
  | _ => fail (.unknownFunction function)

/-- Evaluates an expression, with `go` for the expressions inside it and `enter` for a name. A run of binary
operators is evaluated as one chain, its operands before any of its operators is applied. -/
def step (scope : Scope) (enter : String → m Resolved) : Expr → m Resolved
  | .literal value => liftM (literal value)
  | .path segments => enter (Expr.pathName segments)
  | .paren e | .reference e => go e
  | .unary symbol e => do
    let operand ← go e
    liftM (UnaryOperator.ofSymbol symbol >>= fun op => plain (op.apply operand.value))
  | .binary symbol left right => do
    let run := Expr.binary symbol left right
    let ops ← liftM (operators run.symbols)
    let operands ← values go run.operands
    liftM (plain (Chain.fold operands ops))
  | .methodCall receiver method args => methodCall go scope receiver method args
  | .call function args => call go (Expr.pathName function) args
  | .array es => do
    let items ← elements go es
    pure ⟨.vec items, false⟩
  | .range start stop inclusive => do
    let first ← go start
    let last ← go stop
    liftM (plain (range first.value last.value inclusive))
  | .index target place => do
    let whole ← go target
    let at_ ← go place
    liftM (plain (index whole.value at_.value))
  | .field _ name => fail (.fieldAccess name)
  | .foreign shown => fail (.notEvaluable shown)

end

/-- Evaluates an expression in which at most `budget` evaluations stand in one another. -/
def resolve (scope : Scope) : Nat → List String → Expr → Outcome
  | 0, _, _ => .error .nestingExhausted
  | budget + 1, resolving, e =>
    let go := resolve scope budget
    step (go resolving) scope (name scope go resolving) e

end Evaluation

namespace Scope

/-- The greatest height of the expressions that names stand for. -/
def height (scope : Scope) : Nat :=
  scope.entries.entries.foldr (fun e most => max ((e.2.map Expr.height).getD 0) most) 0

/-- How many names can be in resolution at once. -/
def depthBound (scope : Scope) : Nat := min scope.maxDepth.toNat scope.entries.size

/-- How deep evaluations can stand in one another: for the expression and for every name in resolution, no
deeper than the highest tree. -/
def nestingBound (scope : Scope) (e : Expr) : Nat :=
  (1 + scope.depthBound) * max e.height scope.height

/-- The value of an expression, if at most `budget` evaluations stand in one another. -/
def evaluateWithin (scope : Scope) (budget : Nat) (e : Expr) : Except Failure Value :=
  (Evaluation.resolve scope budget [] e).map Resolved.value

/-- The value of an expression. -/
def evaluate (scope : Scope) (e : Expr) : Except Failure Value :=
  scope.evaluateWithin (scope.nestingBound e) e

end Scope

end NamedExpr
