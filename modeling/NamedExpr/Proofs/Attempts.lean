import NamedExpr.Context
import NamedExpr.Proofs.Visits
/-!
# Evaluating a text in a context

A text that is evaluated in a context whose expressions were read cannot be read, or has a value, or has none for one
of the reasons that the language knows (`Context.HasNoValue`): no building block is given anything it cannot take. The
field whose access fails was visited on the way (`Evaluation.exists_visit_of_error`). Trying to evaluate a text lets
nothing through but the one failure of reading that is not of syntax, an integer that is written with more digits than
are read (`Context.evaluate_cannot_break`).
-/

namespace NamedExpr

/-- A failure of an operation says that an expression has no value, and not that its syntax is unsupported. -/
theorem Failure.kind_of_isOperational {failure : Failure} (h : failure.isOperational = true) :
    failure.kind.isEvaluation = true ∧ failure.kind ≠ .unsupportedSyntax := by
  cases failure <;> first | (cases h; done) | exact ⟨rfl, by simp [kind]⟩

open Evaluation (Visits SpelledScope)

namespace Context

variable {c : Context} {source : String} {failure : Failure}

/-- Access to the field `name` of something is visited when the text `source` is evaluated: it stands in the text, or in
an expression that a name stands for. -/
def VisitsField (c : Context) (source name : String) : Prop :=
  ∃ query resolving target, Expr.read source = .ok query
    ∧ Visits c.scope [] query resolving (.field target name)

/-- How evaluation of the text `source` may fail once the text is read. -/
inductive HasNoValue (c : Context) (source : String) : Failure → Prop where
  | operation {failure : Failure} (operational : failure.isOperational = true) : HasNoValue c source failure
  | fieldAccess {name : String} (visited : c.VisitsField source name) : HasNoValue c source (.fieldAccess name)
  | nesting : HasNoValue c source (.nestsTooDeeply source)

theorem HasNoValue.kind (h : HasNoValue c source failure) :
    failure.kind.isEvaluation = true
      ∧ (failure.kind = .unsupportedSyntax → ∃ name, failure = .fieldAccess name ∧ c.VisitsField source name) := by
  cases h with
  | operation operational =>
    obtain ⟨evaluation, supported⟩ := failure.kind_of_isOperational operational
    exact ⟨evaluation, fun unsupported => absurd unsupported supported⟩
  | fieldAccess visited => exact ⟨rfl, fun _ => ⟨_, rfl, visited⟩⟩
  | nesting => exact ⟨rfl, fun unsupported => by cases unsupported⟩

theorem spelledScope (entries_read : ∀ name e, c.entries.get? name = some e → ∃ text, Expr.read text = .ok e) :
    SpelledScope c.scope := by
  intro name e bound
  simp only [scope, Bindings.get?_map, Option.map_eq_some_iff, Option.some.injEq] at bound
  obtain ⟨_, found, rfl⟩ := bound
  obtain ⟨text, read⟩ := entries_read name _ found
  exact (Expr.isReadable_iff.1 (Expr.isReadable_of_read read)).1

/-- An expression that was read fails because an operation fails that is visited, or the access to a field. -/
theorem hasNoValue_of_outcome (inScope : SpelledScope c.scope) {query : Expr} (read : Expr.read source = .ok query)
    (fails : Evaluation.outcome c.scope [] query = .error failure) : HasNoValue c source failure := by
  obtain ⟨resolving, e, visits, own⟩ := Evaluation.exists_visit_of_error fails
  have spelled : e.isSpelled = true := by
    apply visits.keeps fun _ e => e.isSpelled = true
    · intro _ _ _ _ spelled calls
      exact calls.isSpelled inScope spelled
    · exact (Expr.isReadable_iff.1 (Expr.isReadable_of_read read)).1
  obtain operational | form := own.isOperational_or_form
  · exact .operation operational
  · obtain ⟨target, name, rfl, rfl⟩ := form.of_isSpelled spelled
    exact .fieldAccess ⟨query, resolving, target, read, visits⟩

/-- Evaluating a text fails because the text cannot be read, as its syntax is wrong or an integer in it has too many
digits, or because it has no value. -/
theorem reason_of_evaluate
    (entries_read : ∀ name e, c.entries.get? name = some e → ∃ text, Expr.read text = .ok e)
    (fails : c.evaluate source = .error failure) :
    (Expr.read source = .error failure ∧ (failure.kind = .parse ∨ failure.ExceedsDigits source.toList))
      ∨ HasNoValue c source failure := by
  unfold evaluate at fails
  cases read : Expr.read source with
  | error failure' =>
    rw [read] at fails
    cases fails
    exact .inl ⟨rfl, Expr.kind_of_read read⟩
  | ok query =>
    simp only [read, evaluateExpr, Scope.evaluateWithin] at fails
    obtain same | ⟨_, rfl, exhausted⟩ := Evaluation.resolve_refines_outcome c.scope nestingLimit [] query
    · rw [same] at fails
      cases result : Evaluation.outcome c.scope [] query with
      | ok r =>
        rw [result] at fails
        cases fails
      | error failure' =>
        have noValue := hasNoValue_of_outcome (spelledScope entries_read) read result
        rw [result] at fails
        cases failure' <;> first
          | exact absurd result (Evaluation.outcome_ne_exhausted _ _ _)
          | exact .inr (Except.error.inj fails ▸ noValue)
    · rw [exhausted] at fails
      cases fails
      exact .inr .nesting

end Context

end NamedExpr
