import NamedExpr.Operator.Apply
/-!
# Chains of operands

A chain is a row of operands with an operator between each two. It is evaluated from the left: an operator
waits, with the value on its left, until one that binds no tighter follows or the chain ends. Operators of
one level thus group to the left.
-/

namespace NamedExpr

namespace Chain

/-- An operator that waits for its right operand, and the value on its left. -/
structure Waiting where
  left : Value
  op : Operator

/-- Applies the waiting operators whose level is at least `least`, innermost first, to the value on their
right: the value they make, and the operators that go on waiting. -/
def settle (least : Nat) : List Waiting → Value → Except Failure (Value × List Waiting)
  | [], right => .ok (right, [])
  | w :: rest, right =>
    if least ≤ w.op.level then
      match w.op.apply w.left right with
      | .ok value => settle least rest value
      | .error failure => .error failure
    else .ok (right, w :: rest)

/-- Evaluates the rest of a chain, `last` being the operand before it. -/
def run : List Waiting → Value → List (Operator × Value) → Except Failure Value
  | waiting, last, [] => (settle 0 waiting last).map Prod.fst
  | waiting, last, (op, operand) :: rest =>
    match settle op.level waiting last with
    | .ok (left, waiting) => run (⟨left, op⟩ :: waiting) operand rest
    | .error failure => .error failure

/-- Evaluates a chain given by its operands and its operators, of which there must be one fewer. -/
def fold (operands : List Value) (operators : List Operator) : Except Failure Value :=
  match operands with
  | [] => .error .malformedChain
  | first :: rest =>
    if rest.length = operators.length then run [] first (operators.zip rest) else .error .malformedChain

end Chain

end NamedExpr
