/-!
# Operators

The binary and unary operators of expressions. An operator binds on two scales: `readingLevel` groups an
expression when it is read and has `&&` above `||`; `level` groups a chain of operands when it is evaluated
and has both on one level.
-/

namespace NamedExpr

/-- The binary operators. -/
inductive Operator where
  | mul
  | div
  | rem
  | add
  | sub
  | eq
  | ne
  | gt
  | lt
  | ge
  | le
  | and
  | or
  deriving Repr, DecidableEq

/-- The unary operators. -/
inductive UnaryOperator where
  | neg
  | not
  deriving Repr, DecidableEq

namespace Operator

/-- Every binary operator. -/
def all : List Operator := [.mul, .div, .rem, .add, .sub, .eq, .ne, .gt, .lt, .ge, .le, .and, .or]

/-- How the operator is written. -/
def symbol : Operator → String
  | .mul => "*"
  | .div => "/"
  | .rem => "%"
  | .add => "+"
  | .sub => "-"
  | .eq => "=="
  | .ne => "!="
  | .gt => ">"
  | .lt => "<"
  | .ge => ">="
  | .le => "<="
  | .and => "&&"
  | .or => "||"

/-- The operator written with a symbol. -/
def ofSymbol? (s : String) : Option Operator := all.find? fun op => op.symbol == s

theorem mem_all (op : Operator) : op ∈ all := by cases op <;> decide

@[simp]
theorem ofSymbol?_symbol (op : Operator) : ofSymbol? op.symbol = some op := by cases op <;> decide

theorem ofSymbol?_eq_some_iff {s : String} {op : Operator} : ofSymbol? s = some op ↔ op.symbol = s := by
  constructor
  · intro h
    simpa using List.find?_some h
  · rintro rfl
    exact ofSymbol?_symbol op

/-- Whether the operator computes a number (or joins texts). -/
def isArithmetic : Operator → Bool
  | .mul | .div | .rem | .add | .sub => true
  | _ => false

/-- Whether the operator compares for equality. -/
def isEquality : Operator → Bool
  | .eq | .ne => true
  | _ => false

/-- Whether the operator compares sizes. -/
def isOrdering : Operator → Bool
  | .gt | .lt | .ge | .le => true
  | _ => false

/-- How tightly the operator binds in evaluation; a higher level binds tighter. -/
def level : Operator → Nat
  | .mul | .div | .rem => 4
  | .add | .sub => 3
  | .eq | .ne | .gt | .lt | .ge | .le => 2
  | .and | .or => 1

/-- How tightly the operator binds in reading; a higher level binds tighter. -/
def readingLevel : Operator → Nat
  | .mul | .div | .rem => 5
  | .add | .sub => 4
  | .eq | .ne | .gt | .lt | .ge | .le => 3
  | .and => 2
  | .or => 1

end Operator

namespace UnaryOperator

/-- Every unary operator. -/
def all : List UnaryOperator := [.neg, .not]

/-- How the operator is written. -/
def symbol : UnaryOperator → String
  | .neg => "-"
  | .not => "!"

/-- The operator written with a symbol. -/
def ofSymbol? (s : String) : Option UnaryOperator := all.find? fun op => op.symbol == s

theorem mem_all (op : UnaryOperator) : op ∈ all := by cases op <;> decide

@[simp]
theorem ofSymbol?_symbol (op : UnaryOperator) : ofSymbol? op.symbol = some op := by cases op <;> decide

theorem ofSymbol?_eq_some_iff {s : String} {op : UnaryOperator} :
    ofSymbol? s = some op ↔ op.symbol = s := by
  constructor
  · intro h
    simpa using List.find?_some h
  · rintro rfl
    exact ofSymbol?_symbol op

end UnaryOperator

end NamedExpr
