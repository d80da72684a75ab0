import NamedExpr.Evaluation
import NamedExpr.Expr.Reading
import NamedExpr.Expr.Written
/-!
# Contexts

A context holds named expressions and evaluates texts against them. Its expressions are read when they are
put in and evaluated only when a text refers to them, so one may name another that comes later. Contexts
are values: a change gives a new one.
-/

namespace NamedExpr

/-- Named expressions, and how many names may be in resolution at once. -/
structure Context where
  entries : Bindings Expr
  maxDepth : Int

/-- What trying to evaluate a text comes to: a value if it has one, and what was logged. -/
structure Attempt where
  value? : Option Value
  log : List String

namespace Context

/-- The depth of a context that is given none. -/
def defaultDepth : Int := 64

/-- How deep the evaluation of a text may nest. What is counted are evaluations that stand in one another, where the
platform bounds the frames on its stack, of which an evaluation takes several: the two limits agree far from the
border, in texts that nest little and in texts that nest thousands deep. -/
def nestingLimit : Nat := 1000

/-- The context without expressions. -/
def empty (maxDepth : Int := defaultDepth) : Context := ⟨.empty, maxDepth⟩

/-- The context in which a name stands for the expression that a text reads as. -/
def insert (c : Context) (name source : String) : Except Failure Context :=
  (Expr.read source).map fun e => { c with entries := c.entries.insert name e }

/-- The context in which a name stands for nothing. -/
def remove (c : Context) (name : String) : Context := { c with entries := c.entries.erase name }

/-- Puts a name and its text at the end, or the text in the place of the one that the name had. -/
def withSource (sources : List (String × String)) (name source : String) : List (String × String) :=
  match sources with
  | [] => [(name, source)]
  | (n, s) :: rest => if n = name then (n, source) :: rest else (n, s) :: withSource rest name source

/-- The context of the given names and texts. A name that comes again keeps its place and takes the later
text; the first text that cannot be read is the failure. -/
def ofSources (sources : List (String × String)) (maxDepth : Int := defaultDepth) :
    Except Failure Context :=
  (sources.foldl (fun kept e => withSource kept e.1 e.2) []).foldlM
    (fun c e => c.insert e.1 e.2) (empty maxDepth)

/-- The names in ascending order. -/
def names (c : Context) : List String := c.entries.names

/-- Whether a name stands for something. -/
def contains (c : Context) (name : String) : Bool := c.entries.contains name

/-- The text of the expression that a name stands for. -/
def sourceOf (c : Context) (name : String) : Except Failure String :=
  match c.entries.get? name with
  | some e => e.write?
  | none => .error (.noEntry name)

/-- A context as it is displayed. -/
def display (c : Context) : String :=
  "Context([" ++ ", ".intercalate (c.names.map Text.quoted) ++ "])"

/-- The scope in which texts are evaluated. -/
def scope (c : Context) : Scope := ⟨c.entries.map some, c.maxDepth⟩

/-- The value of an expression, if its evaluation does not nest too deeply for the text it comes from. -/
def evaluateExpr (c : Context) (source : String) (e : Expr) : Except Failure Value :=
  match c.scope.evaluateWithin nestingLimit e with
  | .error .nestingExhausted => .error (.nestsTooDeeply source)
  | outcome => outcome

/-- The value of a text. -/
def evaluate (c : Context) (source : String) : Except Failure Value :=
  match Expr.read source with
  | .ok e => c.evaluateExpr source e
  | .error failure => .error failure

/-- What is logged of a text that has no value. -/
def logLine (source : String) (failure : Failure) : String :=
  if failure.kind = .parse then
    "DEBUG veval.context: Cannot parse " ++ Text.quoted source ++ ": " ++ failure.message
  else
    "DEBUG veval.context: Cannot evaluate " ++ Text.quoted source ++ ": " ++ failure.kind.name ++ ": "
      ++ failure.message

/-- Tries to evaluate a text. That it cannot be read or has no value is logged; other failures go on. -/
def attempt (c : Context) (source : String) : Except Failure Attempt :=
  match c.evaluate source with
  | .ok value => .ok ⟨some value, []⟩
  | .error failure =>
    if failure.kind = .parse ∨ failure.kind.isEvaluation = true then
      .ok ⟨none, [logLine source failure]⟩
    else .error failure

end Context

end NamedExpr
