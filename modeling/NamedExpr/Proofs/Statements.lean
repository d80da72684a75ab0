import NamedExpr.Program
import NamedExpr.Proofs.Attempts
import NamedExpr.Proofs.Dependence
import NamedExpr.Proofs.WellFormedValues
/-!
# What statements do

A statement leaves a context as it is, binds a name to an expression that it reads, or removes a name
(`Statement.changes_of_run`). So a context that statements made from the empty one holds nothing but expressions that
were read, under identifiers (`Context.Entered`), and a statement in it fails only because of the text that it is, or
one in it, or a name that it removes (`Statement.kind_of_run`).
-/

namespace NamedExpr

/-! ## Definitions -/

theorem Definition.ofText_eq_ok_iff {text : String} {d : Definition} :
    Definition.ofText text = .ok d
      ↔ ∃ after, (Text.cut '=' text.toList).2 = some after
        ∧ d.name = String.ofList (Text.trimChars (Text.cut '=' text.toList).1) ∧ Text.isIdentifier d.name = true
        ∧ d.source = String.ofList (Text.trimChars after) := by
  obtain ⟨name, source⟩ := d
  unfold ofText
  split
  · rename_i before parts
    simp [parts]
  · rename_i before after parts
    simp only [parts, Option.some.injEq, exists_eq_left']
    split
    · rename_i identifier
      simp only [Except.ok.injEq, Definition.mk.injEq]
      constructor
      · rintro ⟨rfl, rfl⟩
        exact ⟨rfl, by simpa [Text.isIdentifier] using identifier, rfl⟩
      · rintro ⟨rfl, -, rfl⟩
        exact ⟨rfl, rfl⟩
    · rename_i other
      simp only [reduceCtorEq, false_iff]
      rintro ⟨rfl, identifier, -⟩
      exact other (by simpa [Text.isIdentifier] using identifier)

theorem Definition.eq_notADefinition {text : String} {failure : Failure}
    (fails : Definition.ofText text = .error failure) : failure = .notADefinition text := by
  unfold ofText at fails
  split at fails
  · cases fails
    rfl
  · simp only at fails
    split at fails
    · cases fails
    · cases fails
      rfl

namespace Context

/-- Every expression was put in by a definition: it stands under an identifier, and it was read. -/
def Entered (c : Context) : Prop :=
  ∀ name e, c.entries.get? name = some e → Text.isIdentifier name = true ∧ ∃ text, Expr.read text = .ok e

/-- Nothing stands under a name but expressions. -/
def HoldsExprs (c : Context) : Prop := ∀ name e, c.entries.get? name = some e → e.firstForeign? = none

theorem entered_empty (maxDepth : Int) : (empty maxDepth).Entered := fun _ _ bound => by cases bound

theorem Entered.holdsExprs {c : Context} (entered : c.Entered) : c.HoldsExprs := by
  intro name e bound
  obtain ⟨-, text, read⟩ := entered name e bound
  exact Expr.firstForeign?_eq_none e (Expr.isReadable_iff.1 (Expr.isReadable_of_read read)).1

/-- What becomes of a context that a statement is run in. -/
inductive Changes (c : Context) : Context → Prop where
  | none : Changes c c
  | bind {name source : String} {e : Expr} (identifier : Text.isIdentifier name = true)
      (read : Expr.read source = .ok e) : Changes c { c with entries := c.entries.insert name e }
  | remove (name : String) : Changes c (c.remove name)

namespace Changes

variable {c c' : Context}

theorem maxDepth (changes : c.Changes c') : c'.maxDepth = c.maxDepth := by cases changes <;> rfl

/-- What is bound after a change was bound before, or was read and stands under an identifier. -/
theorem bound (changes : c.Changes c') {name : String} {e : Expr} (bound : c'.entries.get? name = some e) :
    c.entries.get? name = some e ∨ (Text.isIdentifier name = true ∧ ∃ text, Expr.read text = .ok e) := by
  cases changes with
  | none => exact .inl bound
  | bind identifier read =>
    rw [Bindings.get?_insert] at bound
    split at bound
    · rename_i same
      cases bound
      exact .inr ⟨same ▸ identifier, _, read⟩
    · exact .inl bound
  | remove other =>
    rw [Context.remove, Bindings.get?_erase] at bound
    split at bound
    · cases bound
    · exact .inl bound

theorem entered (changes : c.Changes c') (entered : c.Entered) : c'.Entered :=
  fun name e bound => (changes.bound bound).elim (entered name e) id

theorem holdsExprs (changes : c.Changes c') (holds : c.HoldsExprs) : c'.HoldsExprs := by
  intro name e bound
  obtain before | ⟨-, text, read⟩ := changes.bound bound
  · exact holds name e before
  · exact Expr.firstForeign?_eq_none e (Expr.isReadable_iff.1 (Expr.isReadable_of_read read)).1

end Changes

end Context

theorem Definition.changes_of_insertInto {text : String} {d : Definition} {c c' : Context}
    (written : Definition.ofText text = .ok d) (inserted : d.insertInto c = .ok c') : c.Changes c' := by
  obtain ⟨-, -, -, identifier, -⟩ := ofText_eq_ok_iff.1 written
  obtain ⟨e, read, rfl⟩ := Context.insert_eq_ok_iff.1 inserted
  exact .bind identifier read

namespace Statement

variable {c : Context}

/-! ## What a statement changes -/

theorem changes_of_run {s : Statement} {effect : Effect} (ran : run c s = .ok effect) : c.Changes effect.context := by
  cases s with
  | define text =>
    rw [run] at ran
    cases written : Definition.ofText text with
    | error failure =>
      rw [written] at ran
      cases ran
    | ok d =>
      rw [written] at ran
      cases inserted : d.insertInto c with
      | error failure =>
        simp only [inserted, bind, Except.bind] at ran
        cases ran
      | ok c' =>
        simp only [inserted, bind, Except.bind] at ran
        cases ran
        exact Definition.changes_of_insertInto written inserted
  | unset name =>
    rw [run] at ran
    split at ran
    · cases ran
      exact .remove name
    · cases ran
  | list =>
    rw [run] at ran
    cases listed : listing c with
    | error failure =>
      rw [listed] at ran
      cases ran
    | ok text =>
      rw [listed] at ran
      cases ran
      exact .none
  | evaluate source =>
    rw [run] at ran
    cases tried : c.attempt source with
    | error failure =>
      rw [tried] at ran
      cases ran
    | ok attempt =>
      rw [tried] at ran
      cases ran
      exact .none

theorem changes_of_runLine {line : String} {effect : Effect} (ran : runLine c line = .ok effect) :
    c.Changes effect.context := changes_of_run ran

/-! ## How a statement fails -/

/-- A row of a listing: a name and the text of what it stands for. -/
def row (p : String × Expr) : String := p.1 ++ " = " ++ p.2.write

theorem rows_of_holdsExprs (holds : c.HoldsExprs) {entries : List (String × Expr)} (bound : entries ⊆ c.entries.entries) :
    (entries.map Prod.fst).mapM (fun name => (c.sourceOf name).map fun source => name ++ " = " ++ source)
      = .ok (entries.map row) := by
  induction entries with
  | nil => rfl
  | cons first rest ih =>
    obtain ⟨name, e⟩ := first
    obtain ⟨member, others⟩ := List.cons_subset.1 bound
    have source : c.sourceOf name = .ok e.write := by
      have found : c.entries.get? name = some e := Bindings.get?_eq_some_iff.2 member
      simp only [Context.sourceOf, found, Expr.write?, holds name e found]
    rw [List.map_cons, List.mapM_cons, source, ih others]
    rfl

/-- The rows of a listing are those of the entries, in their order. -/
theorem listing_eq_ok (holds : c.HoldsExprs) (some : c.names ≠ []) :
    listing c = .ok ("\n".intercalate (c.entries.entries.map row)) := by
  have rows := rows_of_holdsExprs holds (List.Subset.refl c.entries.entries)
  rw [listing, if_neg (by simpa using some), Context.names, Bindings.names, rows]
  rfl

end Statement

/-- The form of an expression leaves it without a value, or it holds an operator that there is not. -/
theorem Expr.FormFault.kind {e : Expr} {failure : Failure} (fault : e.FormFault failure) :
    failure.kind.isEvaluation = true ∨ failure.kind = .badValue := by
  cases fault with
  | unknownLiteral | literalOutOfRange | fieldAccess | notEvaluable => exact .inl rfl
  | unknownUnaryOperator | unknownOperator => exact .inr rfl

theorem Evaluation.OwnFault.kind {scope : Scope} {resolving : List String} {e : Expr} {failure : Failure}
    (own : OwnFault scope resolving e failure) : failure.kind.isEvaluation = true ∨ failure.kind = .badValue := by
  obtain operational | fault := own.isOperational_or_form
  · exact .inl (failure.kind_of_isOperational operational).1
  · exact fault.kind

namespace Context

/-- Evaluation fails because there is no value, or because of an operator that there is not. -/
theorem kind_of_evaluateExpr {c : Context} {source : String} {e : Expr} {failure : Failure}
    (fails : c.evaluateExpr source e = .error failure) :
    failure.kind.isEvaluation = true ∨ failure.kind = .badValue := by
  have meets : Evaluation.Comes (fun failure => failure.kind.isEvaluation = true ∨ failure.kind = .badValue)
      (Evaluation.resolve c.scope nestingLimit [] e) :=
    Evaluation.resolve_meets (fun _ _ _ own => own.kind) (.inl rfl) nestingLimit [] e
  unfold evaluateExpr Scope.evaluateWithin at fails
  cases result : Evaluation.resolve c.scope nestingLimit [] e with
  | ok r =>
    rw [result] at fails
    cases fails
  | error failure' =>
    rw [result] at fails meets
    by_cases exhausted : failure' = .nestingExhausted
    · subst exhausted
      cases fails
      exact .inl rfl
    · have same : failure' = failure := by
        cases failure' <;> first | exact absurd rfl exhausted | (cases fails; rfl)
      exact same ▸ meets

/-- Trying to evaluate a text fails only because of an operator that there is not, or an integer with too many digits. -/
theorem kind_of_attempt {c : Context} {source : String} {failure : Failure}
    (fails : c.attempt source = .error failure) : failure.kind = .badValue := by
  unfold attempt at fails
  cases result : c.evaluate source with
  | ok value =>
    rw [result] at fails
    cases fails
  | error failure' =>
    simp only [result] at fails
    split at fails
    · cases fails
    · rename_i unexpected
      cases fails
      obtain ⟨notRead, hasValue⟩ := not_or.1 unexpected
      unfold evaluate at result
      split at result
      · exact (kind_of_evaluateExpr result).resolve_left hasValue
      · rename_i unread
        cases result
        exact ((Expr.kind_of_read unread).resolve_left notRead).kind

end Context

theorem Kind.isReported_iff {kind : Kind} : kind.isReported = true ↔ kind = .parse ∨ kind = .badValue := by
  cases kind <;> simp [isReported]

/-- Among expressions, a statement fails because a text in it cannot be read, or is not what it should be; that is
reported. -/
theorem Statement.kind_of_run {c : Context} (holds : c.HoldsExprs) {s : Statement} {failure : Failure}
    (fails : run c s = .error failure) : failure.kind.isReported = true := by
  rw [Kind.isReported_iff]
  cases s with
  | define text =>
    rw [run] at fails
    cases written : Definition.ofText text with
    | error failure =>
      rw [written] at fails
      cases fails
      rw [Definition.eq_notADefinition written]
      exact .inr rfl
    | ok d =>
      rw [written] at fails
      cases read : Expr.read d.source with
      | error failure =>
        simp only [Definition.insertInto, Context.insert, read, bind, Except.bind, Except.map] at fails
        cases fails
        exact (Expr.kind_of_read read).imp_right (·.kind)
      | ok e =>
        simp only [Definition.insertInto, Context.insert, read, bind, Except.bind, Except.map] at fails
        cases fails
  | unset name =>
    rw [run] at fails
    split at fails
    · cases fails
    · cases fails
      exact .inr rfl
  | list =>
    rw [run] at fails
    by_cases some : c.names = []
    · simp [listing, some, Except.map] at fails
    · rw [listing_eq_ok holds some] at fails
      cases fails
  | evaluate source =>
    rw [run] at fails
    cases tried : c.attempt source with
    | error failure =>
      rw [tried] at fails
      cases fails
      exact .inr (Context.kind_of_attempt tried)
    | ok attempt =>
      rw [tried] at fails
      cases fails

end NamedExpr
