import NamedExpr.Proofs.Failures
/-!
# Values that evaluation gives

Operations keep values well formed, and so does evaluation, whatever the expression and however small the budget
(`Evaluation.resolve_meets`). Well-formedness of a value is a fact about everything inside of it (`Value.Inside`), so a
value that is evaluated holds at no depth an integer of more than 64 bits or a vector with an option without content
(`Scope.evaluateWithin_wellFormed`).
-/

namespace NamedExpr

-- Powers are those of the core library, also beside modules that bring others.
attribute [local instance (high)] instPowNat

namespace Value

/-- A value is inside of another if it is that value, an element of it, an element of an element, and so on. -/
inductive Inside (w : Value) : Value → Prop where
  | refl : Inside w w
  | element {v : Value} {items : List Value} (member : v ∈ items) (inside : Inside w v) : Inside w (.vec items)

/-- Whatever is inside of a well-formed value is well formed. -/
theorem Inside.isWellFormed {w v : Value} (inside : w.Inside v) (wellFormed : v.isWellFormed = true) :
    w.isWellFormed = true := by
  induction inside with
  | refl => exact wellFormed
  | element member _ ih =>
    rw [Value.isWellFormed] at wellFormed
    exact ih (areElements_iff.1 wellFormed _ member).1

end Value

namespace Evaluation

variable {fails : Failure → Prop} {scope : Scope}

/-- Evaluation comes to well-formed values, or fails with the own fault of an expression or because its budget was too
small. -/
theorem resolve_meets (own : ∀ resolving e failure, OwnFault scope resolving e failure → fails failure)
    (exhausted : fails .nestingExhausted) (budget : Nat) (resolving : List String) (e : Expr) :
    Comes fails (resolve scope budget resolving e) := by
  induction budget generalizing resolving e with
  | zero => exact exhausted
  | succ budget ih => exact step_meets (own resolving e) fun resolving' e' _ => ih resolving' e'

/-- No expression is at fault for an integer that is put into a value without having been checked. -/
theorem OwnFault.ne_notInt64 {resolving : List String} {e : Expr} {failure : Failure}
    (own : OwnFault scope resolving e failure) (shown : String) : failure ≠ .notInt64 shown := by
  rintro rfl
  obtain operational | fault := own.isOperational_or_form
  · cases operational
  · cases fault

theorem resolve_sound (scope : Scope) (budget : Nat) (resolving : List String) (e : Expr) :
    Comes (fun failure => ∀ shown, failure ≠ .notInt64 shown) (resolve scope budget resolving e) := by
  apply resolve_meets
  · exact fun resolving e failure own => own.ne_notInt64
  · exact fun shown impossible => by cases impossible

end Evaluation

/-- Every integer in a value that an expression is evaluated to has 64 bits, at any depth and as a bound of a range too,
and no vector in it holds an option without content. No evaluation on the way makes a value of an integer that has
more bits. -/
theorem Scope.evaluateWithin_wellFormed (scope : Scope) (e : Expr) :
    (∀ budget v, scope.evaluateWithin budget e = .ok v → ∀ w : Value, w.Inside v →
        (∀ n, w = .int n → -2 ^ (63 : Nat) ≤ n ∧ n < 2 ^ (63 : Nat))
          ∧ (∀ start stop, w = .range start stop →
            (-2 ^ (63 : Nat) ≤ start ∧ start < 2 ^ (63 : Nat)) ∧ -2 ^ (63 : Nat) ≤ stop ∧ stop < 2 ^ (63 : Nat))
          ∧ ∀ items, w = .vec items → .none ∉ items)
      ∧ ∀ budget resolving e' shown, Evaluation.resolve scope budget resolving e' ≠ .error (.notInt64 shown) := by
  constructor
  · intro budget v evaluated w inside
    have wellFormed : v.isWellFormed = true := by
      have sound := Evaluation.resolve_sound scope budget [] e
      unfold evaluateWithin at evaluated
      cases result : Evaluation.resolve scope budget [] e with
      | error failure =>
        rw [result] at evaluated
        cases evaluated
      | ok r =>
        rw [result] at evaluated sound
        cases evaluated
        exact sound
    have inner := inside.isWellFormed wellFormed
    refine ⟨?_, ?_, ?_⟩
    · rintro n rfl
      exact fits64_iff.1 inner
    · rintro start stop rfl
      rw [Value.isWellFormed, Bool.and_eq_true] at inner
      exact ⟨fits64_iff.1 inner.1, fits64_iff.1 inner.2⟩
    · rintro items rfl member
      rw [Value.isWellFormed] at inner
      cases (Value.areElements_iff.1 inner _ member).2
  · intro budget resolving e' shown fails
    have sound := Evaluation.resolve_sound scope budget resolving e'
    rw [fails] at sound
    exact sound shown rfl

/-- The least and the greatest integer, by themselves, as bounds of a range and in a vector in a vector; a range up to
and with the greatest has no bound that is a value. -/
theorem Scope.evaluateWithin_wellFormed_extremes :
    let scope : Scope := ⟨Bindings.empty.insert "top" (some (.literal (.int (2 ^ (63 : Nat) - 1)))), 64⟩
    let top := Expr.path ["top"]
    let least := Expr.binary "-" (.unary "-" top) (.literal (.int 1))
    let inner := Value.vec [.int (2 ^ (63 : Nat) - 1)]
    let v := Value.vec [.int (-2 ^ (63 : Nat)), .range (-2 ^ (63 : Nat)) (2 ^ (63 : Nat) - 1), inner]
    scope.evaluateWithin 9 (.array [least, .range least top false, .array [top]]) = .ok v
      ∧ inner.Inside v ∧ .none ∉ [Value.int (2 ^ (63 : Nat) - 1)]
      ∧ scope.evaluateWithin 9 (.range top top true) = .error (.integerOverflow (2 ^ (63 : Nat))) := by
  intro scope top least inner v
  have evaluated : scope.evaluateWithin 9 (.array [least, .range least top false, .array [top]]) = .ok v := rfl
  have inside : inner.Inside v := .element (by simp) .refl
  exact ⟨evaluated, inside, ((evaluateWithin_wellFormed scope _).1 9 v evaluated inner inside).2.2 _ rfl, rfl⟩

end NamedExpr
