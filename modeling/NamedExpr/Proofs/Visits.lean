import NamedExpr.Proofs.Failures
/-!
# What evaluation visits

Evaluating an expression visits others: its parts, the expressions that names among them stand for, and so on
(`Evaluation.Visits`). What holds at the start and of all that is evaluated where it holds, holds wherever evaluation
comes (`Visits.keeps`), and a failure is the own fault of an expression that is visited (`exists_visit_of_error`).

The names that are met on the way are those that the expression refers to (`Expr.Refers`), those that their
expressions refer to (`Scope.RefersTo`), and so on (`Scope.Reaches`).
-/

namespace NamedExpr

namespace Evaluation

/-- Evaluating `e` while the names in `resolving` are being resolved may come to evaluate `e'` with the names in
`resolving'`. -/
inductive Visits (scope : Scope) : List String → Expr → List String → Expr → Prop where
  | refl (resolving : List String) (e : Expr) : Visits scope resolving e resolving e
  | step {resolving resolving' resolving'' : List String} {e e' e'' : Expr}
      (calls : Calls scope resolving e resolving' e') (visits : Visits scope resolving' e' resolving'' e'') :
      Visits scope resolving e resolving'' e''

variable {scope : Scope} {resolving resolving' : List String} {e e' : Expr}

/-- What holds of all that is evaluated where it holds, holds of all that is visited. -/
theorem Visits.keeps (holds : List String → Expr → Prop)
    (calls : ∀ resolving e resolving' e', holds resolving e → Calls scope resolving e resolving' e' →
      holds resolving' e')
    (visits : Visits scope resolving e resolving' e') (h : holds resolving e) : holds resolving' e' := by
  induction visits with
  | refl => exact h
  | step called _ ih => exact ih (calls _ _ _ _ h called)

/-- A failure is the own fault of an expression that is visited. -/
theorem exists_visit_of_error {failure : Failure} (fails : outcome scope resolving e = .error failure) :
    ∃ resolving' e', Visits scope resolving e resolving' e' ∧ OwnFault scope resolving' e' failure := by
  have comes : Comes
      (fun failure => ∃ resolving' e', Visits scope resolving e resolving' e' ∧ OwnFault scope resolving' e' failure)
      (outcome scope resolving e) := by
    clear fails
    induction resolving, e using @calls_induction scope with
    | step resolving e ih =>
    rw [outcome_eq_step]
    apply step_meets
    · intro failure own
      exact ⟨resolving, e, .refl resolving e, own⟩
    · intro resolving' e' calls
      apply (ih resolving' e' calls).mono
      rintro failure ⟨resolving'', e'', visits, own⟩
      exact ⟨resolving'', e'', .step calls visits, own⟩
  rw [fails] at comes
  exact comes

end Evaluation

/-! ## References -/

/-- The names that may be evaluated for an expression, as long as no name is resolved: itself, if it is one, and
those in its parts. -/
inductive Expr.Refers : Expr → String → Prop where
  | path (segments : List String) : Refers (.path segments) (Expr.pathName segments)
  | part {e p : Expr} {n : String} (member : p ∈ e.parts) (refers : p.Refers n) : Refers e n

namespace Scope

/-- The expression that `a` stands for refers to `b`. -/
def RefersTo (scope : Scope) (a b : String) : Prop :=
  ∃ e, scope.entries.get? a = some (some e) ∧ e.Refers b

/-- The names that an expression refers to, and those that the expressions of such names refer to, and so on. -/
inductive Reaches (scope : Scope) (query : Expr) : String → Prop where
  | here {n : String} (refers : query.Refers n) : Reaches scope query n
  | on {a b : String} (reaches : Reaches scope query a) (refersTo : scope.RefersTo a b) : Reaches scope query b

end Scope

end NamedExpr
