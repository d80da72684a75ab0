import Mathlib
import NamedExpr.Proofs.Nesting
/-!
# Chains and their grouping

A chain is evaluated from the left with a stack of waiting operators. The grouping it computes is the recursive one:
the last of the operators of the lowest level is applied to what stands before it and what stands after it
(`Grouping.ofChain`). Two facts about a run carry this: an operator that everything before it binds at least as
tightly as ends that part (`run_append`), and one that everything after it binds tighter than waits to the end
(`run_waiting`). A machine that keeps operands and operators on stacks of their own never finds one empty
(`Machine.fold_eq`).
-/

namespace NamedExpr

/-! ## The grouping of a chain -/

/-- A chain with brackets put in: an operand, or an operator between two groups. -/
inductive Grouping (α : Type) where
  | operand (a : α)
  | binary (op : Operator) (left right : Grouping α)

namespace Grouping

variable {α : Type}

/-- Cuts the rest of a chain at the last of its operators of the lowest level: what stands before the operator,
the operator, the operand after it, and what stands after that. -/
def splitLowest (level : Operator → Nat) :
    List (Operator × α) → Option (List (Operator × α) × Operator × α × List (Operator × α))
  | [] => none
  | (op, a) :: rest =>
    match splitLowest level rest with
    | none => some ([], op, a, [])
    | some (before, lowest, b, after) =>
      if level lowest ≤ level op then some ((op, a) :: before, lowest, b, after) else some ([], op, a, rest)

theorem splitLowest_eq_none {level : Operator → Nat} {chain : List (Operator × α)} :
    splitLowest level chain = none ↔ chain = [] := by
  cases chain with
  | nil => simp [splitLowest]
  | cons first rest =>
    obtain ⟨op, a⟩ := first
    rw [splitLowest]
    split
    · simp
    · split <;> simp

/-- The operator of the cut has the lowest level, and those after it are on a higher one. -/
theorem splitLowest_eq_some {level : Operator → Nat} {chain before after : List (Operator × α)} {lowest : Operator}
    {b : α} (h : splitLowest level chain = some (before, lowest, b, after)) :
    chain = before ++ (lowest, b) :: after ∧ (∀ p ∈ before, level lowest ≤ level p.1)
      ∧ ∀ p ∈ after, level lowest < level p.1 := by
  induction chain generalizing before lowest b after with
  | nil => cases h
  | cons first rest ih =>
    obtain ⟨op, a⟩ := first
    rw [splitLowest] at h
    split at h
    · rename_i none
      obtain rfl := splitLowest_eq_none.1 none
      cases h
      simp
    · rename_i inner lower c outer split_rest
      obtain ⟨shape, noLower, higher⟩ := ih split_rest
      split at h
      · rename_i le
        cases h
        refine ⟨by rw [shape, List.cons_append], List.forall_mem_cons.2 ⟨le, noLower⟩, higher⟩
      · rename_i above
        cases h
        refine ⟨by simp, by simp, fun p hp => ?_⟩
        rw [shape] at hp
        obtain inside | rfl | outside := (List.mem_append.1 hp).imp_right List.mem_cons.1
        · exact Nat.lt_of_lt_of_le (Nat.lt_of_not_le above) (noLower p inside)
        · exact Nat.lt_of_not_le above
        · exact Nat.lt_trans (Nat.lt_of_not_le above) (higher p outside)

/-- The grouping of a chain, given by its first operand and the others with the operators before them. -/
def ofChain (level : Operator → Nat) (first : α) (chain : List (Operator × α)) : Grouping α :=
  match _h : splitLowest level chain with
  | none => .operand first
  | some (before, lowest, b, after) => .binary lowest (ofChain level first before) (ofChain level b after)
termination_by chain.length
decreasing_by
  all_goals
    obtain ⟨rfl, _, _⟩ := splitLowest_eq_some _h
    simp only [List.length_append, List.length_cons]
    omega

/-- The value of a group: that of the left part, that of the right part, and the operator applied to them. -/
def eval : Grouping Value → Except Failure Value
  | .operand v => .ok v
  | .binary op left right => do
    let a ← left.eval
    let b ← right.eval
    op.apply a b

end Grouping

namespace Chain

/-! ## Waiting operators -/

/-- Where every waiting operator binds at least as tightly as is asked for, all are applied. -/
theorem settle_of_tight {least : Nat} {waiting : List Waiting} (tight : ∀ w ∈ waiting, least ≤ w.op.level)
    (right : Value) : settle least waiting right = (settle 0 waiting right).map fun result => (result.1, []) := by
  induction waiting generalizing right with
  | nil => rfl
  | cons w waiting ih =>
    obtain ⟨first, others⟩ := List.forall_mem_cons.1 tight
    rw [settle, settle, if_pos first, if_pos (Nat.zero_le _)]
    split
    · exact ih others _
    · rfl

/-- An operator that waits outside of all others is left alone as long as it is looser than what is asked for. -/
theorem settle_append_of_lt {least : Nat} {outer : Waiting} (loose : outer.op.level < least)
    (waiting : List Waiting) (right : Value) :
    settle least (waiting ++ [outer]) right
      = (settle least waiting right).map fun result => (result.1, result.2 ++ [outer]) := by
  induction waiting generalizing right with
  | nil =>
    simp only [List.nil_append, settle, if_neg (Nat.not_le.2 loose)]
    rfl
  | cons w waiting ih =>
    rw [List.cons_append, settle, settle]
    split
    · split
      · exact ih _
      · rfl
    · rfl

/-- An operator that waits outside of all others is applied last. -/
theorem settle_zero_append (outer : Waiting) (waiting : List Waiting) (right : Value) :
    (settle 0 (waiting ++ [outer]) right).map Prod.fst
      = (settle 0 waiting right).map Prod.fst >>= outer.op.apply outer.left := by
  induction waiting generalizing right with
  | nil =>
    simp only [List.nil_append, settle, if_pos (Nat.zero_le _)]
    show _ = outer.op.apply outer.left right
    cases outer.op.apply outer.left right with
    | ok value => rfl
    | error failure => rfl
  | cons w waiting ih =>
    rw [List.cons_append, settle, settle, if_pos (Nat.zero_le _), if_pos (Nat.zero_le _)]
    split
    · exact ih _
    · rfl

/-- What goes on waiting was waiting before. -/
theorem mem_of_mem_settle {least : Nat} {waiting rest : List Waiting} {right value : Value}
    (h : settle least waiting right = .ok (value, rest)) : ∀ w ∈ rest, w ∈ waiting := by
  induction waiting generalizing right with
  | nil =>
    cases h
    simp
  | cons w waiting ih =>
    rw [settle] at h
    split at h
    · split at h
      · intro x hx
        exact List.mem_cons_of_mem _ (ih h x hx)
      · cases h
    · cases h
      intro x hx
      exact hx

/-! ## Runs -/

/-- An operator that everything before it binds at least as tightly as waits with the value of all that. -/
theorem run_append {op : Operator} {waiting : List Waiting} {before : List (Operator × Value)}
    (tight : ∀ w ∈ waiting, op.level ≤ w.op.level) (before_tight : ∀ p ∈ before, op.level ≤ p.1.level)
    (first b : Value) (after : List (Operator × Value)) :
    run waiting first (before ++ (op, b) :: after)
      = run waiting first before >>= fun left => run [⟨left, op⟩] b after := by
  induction before generalizing waiting first with
  | nil =>
    rw [List.nil_append, run, run, settle_of_tight tight]
    cases settle 0 waiting first with
    | ok result => rfl
    | error failure => rfl
  | cons p before ih =>
    obtain ⟨op', c⟩ := p
    obtain ⟨head_tight, before_tight⟩ := List.forall_mem_cons.1 before_tight
    rw [List.cons_append, run, run]
    split
    · rename_i left rest settled
      have inner : ∀ w ∈ (⟨left, op'⟩ :: rest : List Waiting), op.level ≤ w.op.level :=
        List.forall_mem_cons.2 ⟨head_tight, fun w hw => tight w (mem_of_mem_settle settled w hw)⟩
      exact ih inner before_tight c
    · rfl

/-- An operator that everything after it binds tighter than waits to the end. -/
theorem run_waiting {outer : Waiting} {after : List (Operator × Value)}
    (tight : ∀ p ∈ after, outer.op.level < p.1.level) (waiting : List Waiting) (b : Value) :
    run (waiting ++ [outer]) b after = run waiting b after >>= outer.op.apply outer.left := by
  induction after generalizing waiting b with
  | nil => exact settle_zero_append outer waiting b
  | cons p after ih =>
    obtain ⟨op, c⟩ := p
    obtain ⟨head_tight, after_tight⟩ := List.forall_mem_cons.1 tight
    rw [run, run, settle_append_of_lt head_tight]
    cases settle op.level waiting b with
    | ok result => exact ih after_tight (⟨result.1, op⟩ :: result.2) c
    | error failure => rfl

/-- Running a chain gives the value of its grouping. -/
theorem run_eq_eval (first : Value) (chain : List (Operator × Value)) :
    run [] first chain = (Grouping.ofChain Operator.level first chain).eval := by
  fun_induction Grouping.ofChain Operator.level first chain with
  | case1 first chain none =>
    obtain rfl := Grouping.splitLowest_eq_none.1 none
    rfl
  | case2 first chain before lowest b after split left right =>
    obtain ⟨rfl, noLower, higher⟩ := Grouping.splitLowest_eq_some split
    have waits (l : Value) : run [⟨l, lowest⟩] b after = run [] b after >>= lowest.apply l :=
      @run_waiting ⟨l, lowest⟩ after higher [] b
    rw [run_append (by simp) noLower, Grouping.eval, left]
    refine congrArg _ (funext fun l => ?_)
    rw [waits l, right]

theorem fold_eq_eval {first : Value} {rest : List Value} {ops : List Operator} (length : rest.length = ops.length) :
    fold (first :: rest) ops = (Grouping.ofChain Operator.level first (ops.zip rest)).eval := by
  rw [fold, if_pos length, run_eq_eval]

end Chain

/-! ## The two stacks

A machine that keeps values and operators on two stacks, the last first. It gives `none` if it takes a value from
an empty stack. -/

namespace Machine

/-- Applies the operators on top of the stack that bind at least as tightly as `least`, each to the two values on
top: the operators and the values that are left. -/
def reduce (least : Nat) : List Operator → List Value → Option (Except Failure (List Operator × List Value))
  | [], values => some (.ok ([], values))
  | op :: pending, values =>
    if least ≤ op.level then
      match values with
      | right :: left :: values =>
        match op.apply left right with
        | .ok value => reduce least pending (value :: values)
        | .error failure => some (.error failure)
      | _ => none
    else some (.ok (op :: pending, values))

/-- Pushes the rest of a chain, an operator with the operand after it, and at the end takes the value at the bottom. -/
def run : List Operator → List Value → List (Operator × Value) → Option (Except Failure Value)
  | pending, values, [] =>
    match reduce 0 pending values with
    | some (.ok (_, values)) => values.getLast?.map .ok
    | some (.error failure) => some (.error failure)
    | none => none
  | pending, values, (op, operand) :: rest =>
    match reduce op.level pending values with
    | some (.ok (pending, values)) => run (op :: pending) (operand :: values) rest
    | some (.error failure) => some (.error failure)
    | none => none

/-- Evaluates a chain on the two stacks. -/
def fold (operands : List Value) (operators : List Operator) : Option (Except Failure Value) :=
  if operands.length = operators.length + 1 then
    match operands with
    | [] => none
    | first :: rest => run [] [first] (operators.zip rest)
  else some (.error .malformedChain)

/-- The stacks hold the waiting operators, and below the value on top the values on their left. -/
theorem reduce_eq_settle (least : Nat) (waiting : List Chain.Waiting) (right : Value) :
    reduce least (waiting.map Chain.Waiting.op) (right :: waiting.map Chain.Waiting.left)
      = some ((Chain.settle least waiting right).map fun result =>
          (result.2.map Chain.Waiting.op, result.1 :: result.2.map Chain.Waiting.left)) := by
  induction waiting generalizing right with
  | nil => rfl
  | cons w waiting ih =>
    rw [List.map_cons, List.map_cons, reduce, Chain.settle]
    split
    · cases w.op.apply w.left right with
      | ok value => exact ih value
      | error failure => rfl
    · rfl

theorem run_eq_run (waiting : List Chain.Waiting) (last : Value) (chain : List (Operator × Value)) :
    run (waiting.map Chain.Waiting.op) (last :: waiting.map Chain.Waiting.left) chain
      = some (Chain.run waiting last chain) := by
  induction chain generalizing waiting last with
  | nil =>
    rw [run, reduce_eq_settle, Chain.run]
    cases settled : Chain.settle 0 waiting last with
    | ok result =>
      -- nothing waits any more, so the bottom of the stack is its only value
      have none := @Chain.settle_of_tight 0 waiting (fun w _ => Nat.zero_le w.op.level) last
      rw [settled] at none
      have empty : result.2 = [] := congrArg Prod.snd (Except.ok.inj none)
      simp [Except.map, empty]
    | error failure => rfl
  | cons p chain ih =>
    obtain ⟨op, operand⟩ := p
    rw [run, reduce_eq_settle, Chain.run]
    cases Chain.settle op.level waiting last with
    | ok result => exact ih (⟨result.1, op⟩ :: result.2) operand
    | error failure => rfl

/-- No stack is ever found empty, and the value is that of the chain. -/
theorem fold_eq (operands : List Value) (operators : List Operator) :
    fold operands operators = some (Chain.fold operands operators) := by
  unfold fold Chain.fold
  cases operands with
  | nil => simp
  | cons first rest =>
    simp only [List.length_cons, Nat.add_right_cancel_iff]
    split
    · exact run_eq_run [] first _
    · rfl

end Machine

/-! ## Walking a run of operators -/

namespace Expr

/-- Walks down the left of a run, keeping the operators that are passed with what stands on their right, and from
each operand back to the innermost of them: the operands and the symbols of the run, in order. -/
def walk (passed : List (String × Expr)) (operands : List Expr) (symbols : List String) :
    Expr → List Expr × List String
  | .binary symbol left right => walk ((symbol, right) :: passed) operands symbols left
  | e =>
    match passed with
    | [] => (operands ++ [e], symbols)
    | (symbol, right) :: passed => walk passed (operands ++ [e]) (symbols ++ [symbol]) right
termination_by e => sizeOf e + (passed.map fun p => sizeOf p.2).sum
decreasing_by
  · simp
    omega
  · have : 0 < sizeOf e := by
      cases e <;> simp
    simp
    omega

theorem walk_eq (passed : List (String × Expr)) (operands : List Expr) (symbols : List String) (e : Expr) :
    walk passed operands symbols e
      = (operands ++ e.operands ++ passed.flatMap (fun p => p.2.operands),
          symbols ++ e.symbols ++ passed.flatMap fun p => p.1 :: p.2.symbols) := by
  fun_induction walk passed operands symbols e with
  | case1 passed operands symbols symbol left right ih => simp [ih]
  | case2 operands symbols e leaf =>
    obtain ⟨only, none⟩ := operands_of_leaf leaf
    simp [only, none]
  | case3 operands symbols e leaf symbol right passed ih =>
    obtain ⟨only, none⟩ := operands_of_leaf leaf
    simp [ih, only, none]

end Expr

namespace Evaluation

/-! ## Evaluating a run of operators -/

theorem operators_map_symbol (ops : List Operator) : operators (ops.map Operator.symbol) = .ok ops := by
  induction ops with
  | nil => rfl
  | cons op ops ih =>
    rw [List.map_cons, operators, ih, Operator.ofSymbol, Operator.ofSymbol?_symbol]
    rfl

/-- The first operand without a value decides. -/
theorem values_append_error {go : Expr → Outcome} {before after : List Expr} {e : Expr} {failure : Failure}
    (fine : ∀ p ∈ before, ∃ r, go p = .ok r) (fails : go e = .error failure) :
    values go (before ++ e :: after) = .error failure := by
  induction before with
  | nil =>
    rw [List.nil_append, values, fails]
    rfl
  | cons p before ih =>
    obtain ⟨⟨r, first⟩, others⟩ := List.forall_mem_cons.1 fine
    rw [List.cons_append, values, first, ih others]
    rfl

theorem values_eq_ok {go : Expr → Outcome} {es : List Expr} {vs : List Value}
    (each : es.map (fun e => (go e).map Resolved.value) = vs.map .ok) : values go es = .ok vs := by
  induction es generalizing vs with
  | nil =>
    cases vs with
    | nil => rfl
    | cons v vs => cases each
  | cons e es ih =>
    cases vs with
    | nil => cases each
    | cons v vs =>
      simp only [List.map_cons, List.cons.injEq] at each
      obtain ⟨first, others⟩ := each
      rw [values, ih others]
      cases result : go e with
      | ok r =>
        rw [result] at first
        obtain rfl : r.value = v := Except.ok.inj first
        rfl
      | error failure =>
        rw [result] at first
        cases first

/-- A run of known binary operators, of any shape, is evaluated operand by operand from the left, and then as its
grouping by levels. Walking the run finds one operand more than operators, and the machine with two stacks
computes the same as the grouping on every chain. -/
theorem outcome_run (scope : Scope) (resolving : List String) {symbol : String} {left right : Expr}
    {ops : List Operator} (known : (Expr.binary symbol left right).symbols = ops.map Operator.symbol) :
    let e := Expr.binary symbol left right
    Expr.walk [] [] [] e = (e.operands, ops.map Operator.symbol) ∧ e.operands.length = ops.length + 1
      ∧ (∀ before first after failure, e.operands = before ++ first :: after →
          (∀ p ∈ before, ∃ r, outcome scope resolving p = .ok r) → outcome scope resolving first = .error failure →
          outcome scope resolving e = .error failure)
      ∧ (∀ first rest,
          e.operands.map (fun p => (outcome scope resolving p).map Resolved.value) = (first :: rest).map .ok →
          outcome scope resolving e = plain (Grouping.ofChain Operator.level first (ops.zip rest)).eval)
      ∧ (∀ first rest, rest.length = ops.length →
          Machine.fold (first :: rest) ops = some (Grouping.ofChain Operator.level first (ops.zip rest)).eval)
      ∧ scope.evaluate e = (outcome scope [] e).map Resolved.value := by
  intro e
  have length : e.operands.length = ops.length + 1 := by
    rw [Expr.length_operands, known, List.length_map]
  have unfolded : outcome scope resolving e
      = values (outcome scope resolving) e.operands >>= fun vs => plain (Chain.fold vs ops) := by
    rw [outcome_eq_step]
    show operators e.symbols >>= (fun ops => values (outcome scope resolving) e.operands >>= fun vs =>
      plain (Chain.fold vs ops)) = _
    rw [known, operators_map_symbol]
    rfl
  refine ⟨?_, length, ?_, ?_, ?_, evaluate_eq_outcome scope e⟩
  · rw [Expr.walk_eq, known]
    simp
  · intro before first after failure shape fine fails
    rw [unfolded, shape, values_append_error fine fails]
    rfl
  · intro first rest each
    have counted : rest.length = ops.length := by
      have := congrArg List.length each
      simp only [List.length_map, List.length_cons] at this
      omega
    rw [unfolded, values_eq_ok each, ← Chain.fold_eq_eval counted]
    rfl
  · intro first rest counted
    rw [Machine.fold_eq, Chain.fold_eq_eval counted]

/-- A product of a sum that stands in the tree without brackets, and a name that no operator guards. -/
theorem outcome_run_regrouped :
    outcome ⟨.empty, 0⟩ [] (.binary "*" (.binary "+" (.literal (.int 1)) (.literal (.int 2))) (.literal (.int 3)))
        = .ok ⟨.int 7, false⟩
      ∧ outcome ⟨.empty, 0⟩ [] (.binary "&&" (.literal (.bool false)) (.path ["x"]))
        = .error (.unresolvedName "x") := by
  constructor
  · have regrouped := (@outcome_run ⟨.empty, 0⟩ [] "*" (.binary "+" (.literal (.int 1)) (.literal (.int 2)))
      (.literal (.int 3)) [.add, .mul] rfl).2.2.2.1 (.int 1) [.int 2, .int 3] rfl
    rw [regrouped, ← Chain.fold_eq_eval rfl]
    rfl
  · have guarded := (@outcome_run ⟨.empty, 0⟩ [] "&&" (.literal (.bool false)) (.path ["x"]) [.and] rfl).2.2.1
    exact guarded [.literal (.bool false)] (.path ["x"]) [] _ rfl
      (List.forall_mem_cons.2 ⟨⟨_, rfl⟩, by simp⟩) rfl

end Evaluation

end NamedExpr
