import NamedExpr.Proofs.MissingNames
/-!
# Exclusive or

`xor` takes the one content of two options. Its receiver is evaluated before the call and its argument by the call, but
all that either side contributes is the content of its option, which a name that is not declared has none of
(`Evaluation.side`), and where both have come to one the call does not tell them apart (`Combinator.exclusive_eq_ok_comm`).
So the sides may change places: what a call comes to stays the same, and so does whether it fails
(`Evaluation.methodCall_xor_comm`). Only the failure itself may be another, that of the side that is evaluated first.
-/

namespace NamedExpr

namespace Combinator

theorem exclusive_eq_ok_comm (mine theirs : Option Value) (r : Resolved) :
    exclusive mine theirs = .ok r ↔ exclusive theirs mine = .ok r := by
  cases mine with
  | none => cases theirs <;> rfl
  | some a =>
    cases theirs with
    | none => rfl
    | some b => constructor <;> exact fun impossible => nomatch impossible

theorem exclusive_eq_error_iff (mine theirs : Option Value) :
    (∃ failure, exclusive mine theirs = .error failure) ↔ mine.isSome = true ∧ theirs.isSome = true := by
  cases mine <;> cases theirs <;> simp [exclusive]

end Combinator

theorem Resolved.isSome_content?_iff {r : Option Resolved} :
    (content? r).isSome = true ↔ ∃ r', r = some r' ∧ r'.value.isNone = false := by
  cases r with
  | none => simp [content?]
  | some r => cases empty : r.value.isNone <;> simp [content?, empty]

namespace Evaluation

variable (scope : Scope) (resolving : List String)

/-- What an expression contributes to `xor`: the content of its option. -/
def side (e : Expr) : Except Failure (Option Value) :=
  (operand (outcome scope resolving) scope true e).map Resolved.content?

/-- The expression fails, and not because it is a name that is not declared. -/
def FailsAsSide (e : Expr) : Prop :=
  scope.misses e = false ∧ ∃ failure, outcome scope resolving e = .error failure

/-- The expression comes to a value other than `None`. -/
def HasContent (e : Expr) : Prop :=
  ∃ r, outcome scope resolving e = .ok r ∧ r.value.isNone = false

variable {scope resolving} {a b e : Expr}

theorem operand_eq_error_iff :
    (∃ failure, operand (outcome scope resolving) scope true e = .error failure) ↔ FailsAsSide scope resolving e := by
  cases missing : scope.misses e with
  | true => simp [FailsAsSide, missing, operand_of_misses missing]
  | false =>
    rw [operand_of_declared missing]
    cases result : outcome scope resolving e with
    | ok r => simp [FailsAsSide, missing, result, present_of_ok result]
    | error failure => simp [FailsAsSide, missing, result, present_of_error result]

theorem side_eq_error_iff : (∃ failure, side scope resolving e = .error failure) ↔ FailsAsSide scope resolving e := by
  rw [← operand_eq_error_iff, side]
  cases operand (outcome scope resolving) scope true e <;> simp [Except.map]

/-- A side has content if it comes to a value that has. -/
theorem isSome_of_side {content? : Option Value} (ok : side scope resolving e = .ok content?) :
    content?.isSome = true ↔ HasContent scope resolving e := by
  rw [side] at ok
  cases evaluated : operand (outcome scope resolving) scope true e with
  | error failure =>
    rw [evaluated] at ok
    cases ok
  | ok r =>
    rw [evaluated] at ok
    cases ok
    rw [Resolved.isSome_content?_iff]
    obtain ⟨-, missing, rfl⟩ | ⟨-, r', result, rfl⟩ := operand_eq_ok evaluated
    · -- a name that is not declared comes to nothing where it is evaluated
      cases e with
      | path segments =>
        have undeclared : scope.entries.contains (Expr.pathName segments) = false := by simpa [Scope.misses] using missing
        simp [HasContent, outcome_of_undeclared undeclared]
      | _ => cases missing
    · simp [HasContent, result]

/-- A call of `xor` evaluates its two sides and takes the one content there is. -/
theorem outcome_xor :
    outcome scope resolving (.methodCall a "xor" [b])
      = side scope resolving a >>= fun mine => side scope resolving b >>= Combinator.exclusive mine := by
  rw [outcome_eq_step]
  show methodCall (outcome scope resolving) scope a "xor" [b] = _
  rw [methodCall_eq_callDeferred]
  simp only [List.map_singleton, Method.callDeferred_xor, side]
  show operand (outcome scope resolving) scope true a >>= (fun r =>
    operand (outcome scope resolving) scope true b >>= fun other => _) = _
  cases operand (outcome scope resolving) scope true a with
  | error failure => rfl
  | ok r => cases operand (outcome scope resolving) scope true b <;> rfl

theorem outcome_xor_of_ok {mine theirs : Option Value} (first : side scope resolving a = .ok mine)
    (second : side scope resolving b = .ok theirs) :
    outcome scope resolving (.methodCall a "xor" [b]) = Combinator.exclusive mine theirs := by
  rw [outcome_xor, first]
  show side scope resolving b >>= Combinator.exclusive mine = _
  rw [second]
  rfl

theorem exists_sides_of_xor {r : Resolved} (ok : outcome scope resolving (.methodCall a "xor" [b]) = .ok r) :
    ∃ mine theirs, side scope resolving a = .ok mine ∧ side scope resolving b = .ok theirs := by
  rw [outcome_xor] at ok
  cases first : side scope resolving a with
  | error failure =>
    rw [first] at ok
    cases ok
  | ok mine =>
    cases second : side scope resolving b with
    | error failure =>
      rw [first, second] at ok
      cases ok
    | ok theirs => exact ⟨mine, theirs, rfl, rfl⟩

theorem outcome_xor_ok_of_swapped {r : Resolved} (ok : outcome scope resolving (.methodCall a "xor" [b]) = .ok r) :
    outcome scope resolving (.methodCall b "xor" [a]) = .ok r := by
  obtain ⟨mine, theirs, first, second⟩ := exists_sides_of_xor ok
  rw [outcome_xor_of_ok first second] at ok
  rw [outcome_xor_of_ok second first]
  exact (Combinator.exclusive_eq_ok_comm mine theirs r).1 ok

/-- A call of `xor` fails if one of its sides does, or if both have content. -/
theorem outcome_xor_eq_error_iff :
    (∃ failure, outcome scope resolving (.methodCall a "xor" [b]) = .error failure)
      ↔ FailsAsSide scope resolving a ∨ FailsAsSide scope resolving b
        ∨ HasContent scope resolving a ∧ HasContent scope resolving b := by
  cases first : side scope resolving a with
  | error failure =>
    have fails : FailsAsSide scope resolving a := side_eq_error_iff.1 ⟨failure, first⟩
    rw [outcome_xor, first]
    exact ⟨fun _ => .inl fails, fun _ => ⟨failure, rfl⟩⟩
  | ok mine =>
    have stands : ¬FailsAsSide scope resolving a := by simp [← side_eq_error_iff, first]
    cases second : side scope resolving b with
    | error failure =>
      have fails : FailsAsSide scope resolving b := side_eq_error_iff.1 ⟨failure, second⟩
      rw [outcome_xor, first, second]
      exact ⟨fun _ => .inr (.inl fails), fun _ => ⟨failure, rfl⟩⟩
    | ok theirs =>
      have stands' : ¬FailsAsSide scope resolving b := by simp [← side_eq_error_iff, second]
      rw [outcome_xor_of_ok first second, Combinator.exclusive_eq_error_iff, isSome_of_side first,
        isSome_of_side second]
      simp [stands, stands']

/-- The sides of `xor` may change places: it comes to the same value with the same mark, and fails in both orders if one
of the sides fails or both have content. -/
theorem methodCall_xor_comm (scope : Scope) (a b : Expr) :
    (∀ (resolving : List String) (r : Resolved),
        outcome scope resolving (.methodCall a "xor" [b]) = .ok r
          ↔ outcome scope resolving (.methodCall b "xor" [a]) = .ok r)
      ∧ (∀ resolving : List String,
        ((∃ failure, outcome scope resolving (.methodCall a "xor" [b]) = .error failure)
            ↔ FailsAsSide scope resolving a ∨ FailsAsSide scope resolving b
              ∨ HasContent scope resolving a ∧ HasContent scope resolving b)
          ∧ ((∃ failure, outcome scope resolving (.methodCall b "xor" [a]) = .error failure)
            ↔ FailsAsSide scope resolving a ∨ FailsAsSide scope resolving b
              ∨ HasContent scope resolving a ∧ HasContent scope resolving b))
      ∧ ∀ v : Value, scope.evaluate (.methodCall a "xor" [b]) = .ok v ↔ scope.evaluate (.methodCall b "xor" [a]) = .ok v := by
  have comm (resolving : List String) (r : Resolved) :
      outcome scope resolving (.methodCall a "xor" [b]) = .ok r
        ↔ outcome scope resolving (.methodCall b "xor" [a]) = .ok r :=
    ⟨outcome_xor_ok_of_swapped, outcome_xor_ok_of_swapped⟩
  refine ⟨comm, fun resolving => ⟨outcome_xor_eq_error_iff, ?_⟩, fun v => ?_⟩
  · rw [outcome_xor_eq_error_iff, or_left_comm, and_comm]
  · simp only [evaluate_eq_ok_iff, comm]

end Evaluation

end NamedExpr
