import NamedExpr.Operator
/-!
# Expressions

Syntax trees of expressions. Trees may be built by hand, so operators are symbols of any kind, and a tree
may hold things that are no expression (`foreign`) or no literal (`Literal.unknown`); reading a text never
makes either.
-/

namespace NamedExpr

/-- A literal. -/
inductive Literal where
  | none
  | bool (b : Bool)
  | int (n : Int)
  | float (x : Float)
  | str (s : String)
  /-- A literal of no known sort, as it is displayed. -/
  | unknown (shown : String)
  deriving DecidableEq, Inhabited

/-- An expression. -/
inductive Expr where
  | literal (value : Literal)
  /-- A name, in parts that `::` joins. -/
  | path (segments : List String)
  | unary (symbol : String) (operand : Expr)
  /-- A reference `&e`, which has the value of `e`. -/
  | reference (operand : Expr)
  | binary (symbol : String) (left right : Expr)
  | methodCall (receiver : Expr) (method : String) (args : List Expr)
  | call (function : List String) (args : List Expr)
  | field (receiver : Expr) (name : String)
  | array (elements : List Expr)
  | index (target index : Expr)
  | range (start stop : Expr) (inclusive : Bool)
  | paren (inner : Expr)
  /-- Something that is no expression, as it is displayed. -/
  | foreign (shown : String)
  deriving Inhabited

namespace Expr

/-- The name that the parts of a path make. -/
def pathName (segments : List String) : String := "::".intercalate segments

mutual

/-- Whether two expressions are the same tree. -/
def same : Expr → Expr → Bool
  | .literal a, .literal b => a == b
  | .path a, .path b => a == b
  | .unary o a, .unary p b => o == p && same a b
  | .reference a, .reference b => same a b
  | .binary o a b, .binary p c d => o == p && same a c && same b d
  | .methodCall a m as, .methodCall b n bs => same a b && m == n && sameAll as bs
  | .call f as, .call g bs => f == g && sameAll as bs
  | .field a m, .field b n => same a b && m == n
  | .array as, .array bs => sameAll as bs
  | .index a b, .index c d => same a c && same b d
  | .range a b i, .range c d j => same a c && same b d && i == j
  | .paren a, .paren b => same a b
  | .foreign a, .foreign b => a == b
  | _, _ => false

/-- Whether two rows of expressions are the same trees. -/
def sameAll : List Expr → List Expr → Bool
  | [], [] => true
  | a :: as, b :: bs => same a b && sameAll as bs
  | _, _ => false

end

mutual

/-- How many expressions stand in one another, the expression itself included. -/
def height : Expr → Nat
  | .literal _ | .path _ | .foreign _ => 1
  | .unary _ e | .reference e | .field e _ | .paren e => height e + 1
  | .binary _ a b | .index a b | .range a b _ => max (height a) (height b) + 1
  | .methodCall e _ args => max (height e) (heightAll args) + 1
  | .call _ args | .array args => heightAll args + 1

/-- The greatest height in a row of expressions. -/
def heightAll : List Expr → Nat
  | [] => 0
  | e :: rest => max (height e) (heightAll rest)

end

/-- The operands of the run of binary operators that an expression is, in order, before those of `rest`. -/
def operandsBefore : Expr → List Expr → List Expr
  | .binary _ left right, rest => operandsBefore left (operandsBefore right rest)
  | e, rest => e :: rest

/-- The symbols of the run of binary operators that an expression is, in order, before those of `rest`. -/
def symbolsBefore : Expr → List String → List String
  | .binary symbol left right, rest => symbolsBefore left (symbol :: symbolsBefore right rest)
  | _, rest => rest

/-- The operands of a run of directly nested binary operators; the run of any other expression is its only
operand. -/
def operands (e : Expr) : List Expr := operandsBefore e []

/-- The symbols of a run of directly nested binary operators. -/
def symbols (e : Expr) : List String := symbolsBefore e []

theorem operandsBefore_append (e : Expr) (rest tail : List Expr) :
    operandsBefore e (rest ++ tail) = operandsBefore e rest ++ tail := by
  fun_induction operandsBefore e rest generalizing tail with
  | case1 symbol left right rest ihRight ihLeft => rw [operandsBefore, ihRight, ihLeft]
  | case2 => simp [operandsBefore]

theorem symbolsBefore_append (e : Expr) (rest tail : List String) :
    symbolsBefore e (rest ++ tail) = symbolsBefore e rest ++ tail := by
  fun_induction symbolsBefore e rest generalizing tail with
  | case1 symbol left right rest ihRight ihLeft =>
    rw [symbolsBefore, ihRight, ← List.cons_append, ihLeft]
  | case2 => simp [symbolsBefore]

@[simp]
theorem operands_binary (symbol : String) (left right : Expr) :
    (binary symbol left right).operands = left.operands ++ right.operands := by
  simpa [operands, operandsBefore] using operandsBefore_append left [] (operandsBefore right [])

@[simp]
theorem symbols_binary (symbol : String) (left right : Expr) :
    (binary symbol left right).symbols = left.symbols ++ symbol :: right.symbols := by
  simpa [symbols, symbolsBefore] using symbolsBefore_append left [] (symbol :: symbolsBefore right [])

/-- Whatever is no binary operation is the only operand of its run. -/
theorem operands_of_leaf {e : Expr} (leaf : ∀ symbol left right, e ≠ .binary symbol left right) :
    e.operands = [e] ∧ e.symbols = [] := by
  cases e with
  | binary symbol left right => exact absurd rfl (leaf symbol left right)
  | _ => exact ⟨rfl, rfl⟩

/-- Induction along a run of operators: whatever is no binary operation ends it. -/
@[elab_as_elim]
theorem run_induction {motive : Expr → Prop}
    (binary : ∀ symbol left right, motive left → motive right → motive (.binary symbol left right))
    (leaf : ∀ e, (∀ symbol left right, e ≠ .binary symbol left right) → motive e) (e : Expr) : motive e := by
  have along (rest : List Expr) : motive e := by
    fun_induction operandsBefore e rest with
    | case1 symbol left right rest ihRight ihLeft => exact binary symbol left right ihLeft ihRight
    | case2 e rest notBinary => exact leaf e notBinary
  exact along []

/-- A run has one operand more than operators. -/
theorem length_operandsBefore (e : Expr) (rest : List Expr) (symbols : List String) :
    (operandsBefore e rest).length + symbols.length = (symbolsBefore e symbols).length + rest.length + 1 := by
  fun_induction operandsBefore e rest generalizing symbols with
  | case1 symbol left right rest ihRight ihLeft =>
    have outer := ihLeft (symbol :: symbolsBefore right symbols)
    have inner := ihRight symbols
    simp only [symbolsBefore, List.length_cons] at outer ⊢
    omega
  | case2 e rest notBinary =>
    cases e <;> simp_all [symbolsBefore] <;> omega

theorem length_operands (e : Expr) : e.operands.length = e.symbols.length + 1 := by
  simpa [operands, symbols] using length_operandsBefore e [] []

end Expr

end NamedExpr
