import NamedExpr.Proofs.Arguments
import NamedExpr.Proofs.Inlining
import NamedExpr.Proofs.Visits
/-!
# Names that are not declared

A name that is not declared stands for no expression and fails. It counts as `None` in two places only: as the receiver
of a method that tolerates it (`Method.tolerantNames`), and as the only argument of `xor`. There it makes no difference
which of the two is written (`methodCall_missing_receiver`, `methodCall_missing_argument`). In brackets, behind a
reference or behind another name it fails even there.
-/

namespace NamedExpr

namespace Method

/-- The methods that take a name that is not declared as their receiver. -/
def tolerantNames : List String := ["is_none", "is_some", "unwrap_or", "or", "xor", "is_option"]

theorem mem_tolerantNames_iff {name : String} : name ∈ tolerantNames ↔ toleratesReceiver name = true := by
  constructor
  · have every : ∀ name ∈ tolerantNames, toleratesReceiver name = true := by decide
    exact every name
  · intro tolerated
    unfold toleratesReceiver at tolerated
    split at tolerated
    · rename_i c found
      rw [← name_of_ofName? found]
      cases c <;> first | (cases tolerated; done) | decide
    · cases tolerated

/-- To a method that tolerates it, a missing receiver is `None`. -/
theorem dispatch_missing {name : String} (tolerant : name ∈ tolerantNames) (given : Nat) :
    dispatch name none given = dispatch name (some .absent) given := by
  have every : ∀ name ∈ tolerantNames, ∃ c ∈ Combinator.all, ofName? name = some (.combinator c) ∧ c ≠ .and := by
    decide
  obtain ⟨c, -, found, other⟩ := every name tolerant
  rw [dispatch_eq_combinator found, dispatch_eq_combinator found]
  cases c with
  | and => exact absurd rfl other
  | or | xor | unwrap | unwrapOr | isNone | isSome | isOption => rfl

theorem callDeferred_missing {m : Type → Type} [Monad m] [MonadLiftT (Except Failure) m] {name : String}
    (tolerant : name ∈ tolerantNames) (args : List (m (Option Resolved))) :
    callDeferred name none args = callDeferred name (some .absent) args := by
  rw [callDeferred, callDeferred, dispatch_missing tolerant]

/-- To `xor`, a missing argument is `None`. -/
theorem callDeferred_xor {receiver : Option Resolved} (argument : Except Failure (Option Resolved)) :
    callDeferred "xor" receiver [argument]
      = argument >>= fun other => Combinator.exclusive (Resolved.content? receiver) (Resolved.content? other) :=
  callDeferred_of_first rfl

end Method

/-- The expression stands in brackets or behind a reference, or in several of both. -/
inductive Expr.Wraps (inner : Expr) : Expr → Prop where
  | paren : Wraps inner (.paren inner)
  | reference : Wraps inner (.reference inner)
  | inParen {e : Expr} (wraps : Wraps inner e) : Wraps inner (.paren e)
  | inReference {e : Expr} (wraps : Wraps inner e) : Wraps inner (.reference e)

namespace Evaluation

variable {scope : Scope} {go : Expr → Outcome}

/-! ## Operands -/

theorem operand_of_misses {e : Expr} (missing : scope.misses e = true) (tolerated : Bool) :
    operand go scope tolerated e = if tolerated then .ok none else present go e := by
  rw [operand_eq, missing, Bool.and_true]
  rfl

theorem operand_of_declared {e : Expr} (declared : scope.misses e = false) (tolerated : Bool) :
    operand go scope tolerated e = present go e := by
  rw [operand_eq, declared, Bool.and_false]
  rfl

/-! ## Calls -/

/-- As the receiver of a method that tolerates it, a name that is not declared is the same as `None`. -/
theorem methodCall_missing_receiver {e : Expr} (missing : scope.misses e = true)
    (empty : go (.literal .none) = .ok .absent) {method : String} (tolerant : method ∈ Method.tolerantNames)
    (args : List Expr) :
    methodCall go scope e method args = methodCall go scope (.literal .none) method args := by
  rw [methodCall_eq_callDeferred, methodCall_eq_callDeferred, operand_of_misses missing,
    operand_of_declared (e := .literal .none) rfl, Method.mem_tolerantNames_iff.1 tolerant, present_of_ok empty]
  exact Method.callDeferred_missing tolerant _

/-- As the only argument of `xor`, a name that is not declared is the same as `None`. -/
theorem methodCall_missing_argument {e : Expr} (missing : scope.misses e = true)
    (empty : go (.literal .none) = .ok .absent) (receiver : Expr) :
    methodCall go scope receiver "xor" [e] = methodCall go scope receiver "xor" [.literal .none] := by
  rw [methodCall_eq_callDeferred, methodCall_eq_callDeferred]
  congr 1
  funext r
  rw [List.map_singleton, List.map_singleton, operand_of_misses missing,
    operand_of_declared (e := .literal .none) rfl, present_of_ok empty, Method.callDeferred_xor,
    Method.callDeferred_xor]
  rfl

theorem methodCall_of_receiver_error {receiver : Expr} {method : String} {failure : Failure}
    (fails : operand go scope (Method.toleratesReceiver method) receiver = .error failure) (args : List Expr) :
    methodCall go scope receiver method args = .error failure
      ∧ evaluatedArguments go scope receiver method args = [] := by
  constructor
  · rw [methodCall_eq_callDeferred, fails]
    rfl
  · rw [evaluatedArguments, fails]

theorem methodCall_of_argument_error {argument : Expr} {failure : Failure}
    (fails : operand go scope true argument = .error failure) (receiver : Expr) :
    methodCall go scope receiver "xor" [argument]
      = operand go scope true receiver >>= fun _ => .error failure := by
  rw [methodCall_eq_callDeferred]
  congr 1
  funext r
  rw [List.map_singleton, Method.callDeferred_xor, show Method.toleratesArgument "xor" = true from rfl, fails]
  rfl

/-- As the receiver of any method, or as the only argument of `xor`, the expression makes a call fail. An argument
comes after the receiver. -/
structure FailsAsOperand (scope : Scope) (resolving : List String) (e : Expr) (failure : Failure) : Prop where
  receiver (method : String) (args : List Expr) :
    outcome scope resolving (.methodCall e method args) = .error failure
  argument (receiver : Expr) :
    outcome scope resolving (.methodCall receiver "xor" [e])
      = operand (outcome scope resolving) scope true receiver >>= fun _ => .error failure

/-- What is no missing name fails as an operand as it does elsewhere. -/
theorem FailsAsOperand.of_outcome {resolving : List String} {e : Expr} {failure : Failure}
    (declared : scope.misses e = false) (fails : outcome scope resolving e = .error failure) :
    FailsAsOperand scope resolving e failure := by
  have operand (tolerated : Bool) : operand (outcome scope resolving) scope tolerated e = .error failure := by
    rw [operand_of_declared declared]
    exact present_of_error fails
  constructor
  · intro method args
    rw [outcome_eq_step]
    exact (methodCall_of_receiver_error (operand _) args).1
  · intro receiver
    rw [outcome_eq_step]
    exact methodCall_of_argument_error (operand true) receiver

/-! ## Names -/

variable {segments : List String}

theorem unbound_of_undeclared (undeclared : scope.entries.contains (Expr.pathName segments) = false) (e : Expr) :
    scope.entries.get? (Expr.pathName segments) ≠ some (some e) := by
  intro bound
  rw [Bindings.contains, bound] at undeclared
  cases undeclared

theorem outcome_of_undeclared (undeclared : scope.entries.contains (Expr.pathName segments) = false)
    (resolving : List String) :
    outcome scope resolving (.path segments) = .error (.unresolvedName (Expr.pathName segments)) := by
  rw [outcome_path]
  exact name_of_unbound (unbound_of_undeclared undeclared)

theorem outcome_of_wraps {inner e : Expr} (wraps : inner.Wraps e) (resolving : List String) :
    outcome scope resolving e = outcome scope resolving inner := by
  induction wraps with
  | paren => exact outcome_paren scope resolving inner
  | reference => exact outcome_eq_step scope resolving (.reference inner)
  | inParen _ ih => exact (outcome_paren scope resolving _).trans ih
  | inReference _ ih => exact (outcome_eq_step scope resolving (.reference _)).trans ih

theorem misses_of_wraps {inner e : Expr} (wraps : inner.Wraps e) : scope.misses e = false := by
  cases wraps <;> rfl

/-- While a name that stands for one that is not declared is being resolved, nothing else is evaluated. -/
theorem not_mem_of_visits (undeclared : scope.entries.contains (Expr.pathName segments) = false) {synonym : String}
    (bound : scope.entries.get? synonym = some (some (.path segments))) {query e : Expr} {resolving : List String}
    (visits : Visits scope [] query resolving e) (other : e ≠ .path segments) : synonym ∉ resolving := by
  -- While the name is in resolution the bare path is evaluated, which has no parts and stands for nothing.
  have kept : e = .path segments ∨ synonym ∉ resolving := by
    refine visits.keeps (fun resolving e => e = .path segments ∨ synonym ∉ resolving) ?_ (.inr (by simp))
    rintro resolving e resolving' e' holds calls
    cases calls with
    | part member =>
      obtain rfl | fresh := holds
      · cases member
      · exact .inr fresh
    | name bound' entered shallow =>
      rename_i segments'
      obtain path | fresh := holds
      · cases path
        exact absurd bound' (unbound_of_undeclared undeclared e')
      · by_cases same : Expr.pathName segments' = synonym
        · rw [same, bound] at bound'
          exact .inl (by simpa using bound'.symm)
        · exact .inr (by simp [Ne.symm same, fresh])
  exact kept.resolve_left other

/-- A name that stands for one that is not declared fails as it does, unless the limit stops it before. -/
theorem outcome_of_synonym (undeclared : scope.entries.contains (Expr.pathName segments) = false)
    {synonym resolving : List String}
    (bound : scope.entries.get? (Expr.pathName synonym) = some (some (.path segments)))
    (fresh : Expr.pathName synonym ∉ resolving) :
    outcome scope resolving (.path synonym)
      = .error (if scope.maxDepth ≤ resolving.length then .depthExceeded scope.maxDepth
          else .unresolvedName (Expr.pathName segments)) := by
  rw [outcome_path, name_of_bound bound, if_neg fresh]
  split
  · rfl
  · exact outcome_of_undeclared undeclared _

/-- A name that is not declared is the same as `None` as the receiver of a method that tolerates it and as the only
argument of `xor`. As the receiver of any other method it fails before an argument is evaluated. Behind brackets,
references or another name it fails wherever it is an operand. -/
theorem methodCall_undeclared (scope : Scope) (segments : List String)
    (undeclared : scope.entries.contains (Expr.pathName segments) = false) :
    (∀ (resolving : List String) (method : String) (args : List Expr), method ∈ Method.tolerantNames →
        outcome scope resolving (.methodCall (.path segments) method args)
            = outcome scope resolving (.methodCall (.literal .none) method args)
          ∧ ∀ budget, resolve scope (budget + 2) resolving (.methodCall (.path segments) method args)
            = resolve scope (budget + 2) resolving (.methodCall (.literal .none) method args))
      ∧ (∀ (resolving : List String) (receiver : Expr),
        outcome scope resolving (.methodCall receiver "xor" [.path segments])
            = outcome scope resolving (.methodCall receiver "xor" [.literal .none])
          ∧ ∀ budget, resolve scope (budget + 2) resolving (.methodCall receiver "xor" [.path segments])
            = resolve scope (budget + 2) resolving (.methodCall receiver "xor" [.literal .none]))
      ∧ (∀ (resolving : List String) (method : String) (args : List Expr), method ∉ Method.tolerantNames →
        outcome scope resolving (.methodCall (.path segments) method args)
            = .error (.unresolvedName (Expr.pathName segments))
          ∧ evaluatedArguments (outcome scope resolving) scope (.path segments) method args = [])
      ∧ (∀ (e : Expr), Expr.Wraps (.path segments) e → ∀ resolving,
        FailsAsOperand scope resolving e (.unresolvedName (Expr.pathName segments)))
      ∧ ∀ synonym : List String, scope.entries.get? (Expr.pathName synonym) = some (some (.path segments)) →
        ∀ (query : Expr) (resolving : List String) (receiver : Expr) (method : String) (args : List Expr),
          Visits scope [] query resolving (.methodCall receiver method args) →
          FailsAsOperand scope resolving (.path synonym)
            (if scope.maxDepth ≤ resolving.length then .depthExceeded scope.maxDepth
              else .unresolvedName (Expr.pathName segments)) := by
  have missing : scope.misses (.path segments) = true := by
    rw [Scope.misses, undeclared]
    rfl
  have empty (resolving : List String) : outcome scope resolving (.literal .none) = .ok .absent :=
    outcome_eq_step scope resolving (.literal .none)
  refine ⟨?_, ?_, ?_, ?_, ?_⟩
  · intro resolving method args tolerant
    constructor
    · rw [outcome_eq_step, outcome_eq_step]
      exact methodCall_missing_receiver missing (empty resolving) tolerant args
    · intro budget
      exact methodCall_missing_receiver missing rfl tolerant args
  · intro resolving receiver
    constructor
    · rw [outcome_eq_step, outcome_eq_step]
      exact methodCall_missing_argument missing (empty resolving) receiver
    · intro budget
      exact methodCall_missing_argument missing rfl receiver
  · intro resolving method args intolerant
    have evaluated : operand (outcome scope resolving) scope (Method.toleratesReceiver method) (.path segments)
        = .error (.unresolvedName (Expr.pathName segments)) := by
      rw [operand_of_misses missing, if_neg (Method.mem_tolerantNames_iff.not.1 intolerant)]
      exact present_of_error (outcome_of_undeclared undeclared resolving)
    rw [outcome_eq_step]
    exact methodCall_of_receiver_error evaluated args
  · intro e wraps resolving
    apply FailsAsOperand.of_outcome (misses_of_wraps wraps)
    rw [outcome_of_wraps wraps, outcome_of_undeclared undeclared]
  · intro synonym bound query resolving receiver method args visits
    have declared : scope.misses (.path synonym) = false := by
      rw [Scope.misses, Bindings.contains, bound]
      rfl
    have fresh : Expr.pathName synonym ∉ resolving := not_mem_of_visits undeclared bound visits (by simp)
    exact .of_outcome declared (outcome_of_synonym undeclared bound fresh)

/-- A name that is not declared as the receiver of `or`: bare, in brackets, and behind another name. -/
theorem methodCall_undeclared_or :
    let scope : Scope := ⟨Bindings.empty.insert "y" (some (.path ["x"])), 1⟩
    let seven := Expr.literal (.int 7)
    outcome scope [] (.methodCall (.path ["x"]) "or" [seven]) = .ok ⟨.int 7, true⟩
      ∧ outcome scope [] (.methodCall (.paren (.path ["x"])) "or" [seven]) = .error (.unresolvedName "x")
      ∧ outcome scope [] (.methodCall (.path ["y"]) "or" [seven]) = .error (.unresolvedName "x")
      ∧ outcome scope [] (.methodCall (.path ["x"]) "unwrap" [seven, seven]) = .error (.unresolvedName "x") := by
  intro scope seven
  obtain ⟨tolerated, -, refused, wrapped, renamed⟩ := methodCall_undeclared scope ["x"] rfl
  refine ⟨?_, (wrapped _ .paren []).receiver "or" [seven], ?_, (refused [] "unwrap" _ (by decide)).1⟩
  · rw [(tolerated [] "or" [seven] (by decide)).1]
    rfl
  · exact (renamed ["y"] rfl _ [] (.path ["y"]) "or" [seven] (.refl _ _)).receiver "or" [seven]

end Evaluation

end NamedExpr
