import NamedExpr.Proofs.Visits
/-!
# The depth limit

A greater depth limit, or fewer names in resolution, let evaluation go on where a guard would stop it, and change
nothing else (`Evaluation.resolve_refines`). The names in resolution are distinct names with expressions, and a name
is tested for a cycle before the depth is: so with a limit as great as the number of names the depth never stops
evaluation (`Scope.evaluate_eq_of_le_maxDepth`).
-/

namespace NamedExpr

namespace Evaluation

/-! ## Fewer names in resolution -/

/-- In `scope'` with the names `resolving'` in resolution, no guard stops evaluation where it goes on in `scope` with
the names `resolving`. The failures by which it is stopped there are set aside. -/
structure Freer (aside : Failure → Prop) (scope : Scope) (resolving : List String) (scope' : Scope)
    (resolving' : List String) : Prop where
  entries : scope'.entries = scope.entries
  subset : resolving' ⊆ resolving
  room : scope.maxDepth + resolving'.length ≤ scope'.maxDepth + resolving.length
  depth : ∀ limit, aside (.depthExceeded limit)
  cycles : resolving' = resolving ∨ ∀ chain, aside (.cyclicReference chain)

section

variable {aside : Failure → Prop} {scope scope' : Scope} {resolving resolving' : List String}

theorem Freer.cons (h : Freer aside scope resolving scope' resolving') (n : String) :
    Freer aside scope (n :: resolving) scope' (n :: resolving') where
  entries := h.entries
  subset := List.cons_subset_cons n h.subset
  room := by
    have room := h.room
    simp only [List.length_cons]
    omega
  depth := h.depth
  cycles := h.cycles.imp_left (congrArg (n :: ·))

theorem name_refines {go go' : List String → Expr → Outcome} {n : String}
    (free : Freer aside scope resolving scope' resolving')
    (h : ∀ e, Refines aside (go (n :: resolving) e) (go' (n :: resolving') e)) :
    Refines aside (name scope go resolving n) (name scope' go' resolving' n) := by
  by_cases bound : ∃ e, scope.entries.get? n = some (some e)
  · obtain ⟨e, bound⟩ := bound
    have bound' : scope'.entries.get? n = some (some e) := by rw [free.entries, bound]
    rw [name_of_bound bound, name_of_bound bound']
    by_cases met : n ∈ resolving
    · rw [if_pos met]
      obtain rfl | stopped := free.cycles
      · rw [if_pos met]
        exact .refl _
      · exact .inr ⟨_, stopped _, rfl⟩
    · have unmet : n ∉ resolving' := fun member => met (free.subset member)
      rw [if_neg met, if_neg unmet]
      by_cases deep : scope.maxDepth ≤ resolving.length
      · rw [if_pos deep]
        exact .inr ⟨_, free.depth _, rfl⟩
      · have room := free.room
        rw [if_neg deep, if_neg (by omega)]
        exact h e
  · have unbound := not_exists.1 bound
    rw [name_of_unbound unbound, name_of_unbound (free.entries ▸ unbound)]
    exact .refl _

/-- Where evaluation is freer it comes to the same, unless it is stopped where it is not. -/
theorem resolve_refines (free : Freer aside scope resolving scope' resolving') (budget : Nat) (e : Expr) :
    Refines aside (resolve scope budget resolving e) (resolve scope' budget resolving' e) := by
  induction budget generalizing resolving resolving' e with
  | zero => exact .refl _
  | succ budget ih =>
    have alike : e.Alike (fun p p' => p = p') e := .refl fun _ _ => rfl
    apply step_alike (Refines.along aside) alike
    · intro segments _
      exact name_refines free fun e => ih (free.cons _) e
    · rintro p _ rfl
      exact ⟨ih free p, Scope.misses_congr free.entries.symm p⟩

theorem outcome_refines (free : Freer aside scope resolving scope' resolving') (e : Expr) :
    Refines aside (outcome scope resolving e) (outcome scope' resolving' e) := by
  have refined := resolve_refines free (reach scope resolving e + reach scope' resolving' e) e
  rwa [resolve_eq_outcome (Nat.le_add_right _ _), resolve_eq_outcome (Nat.le_add_left _ _)] at refined

end

/-! ## A limit that stops nothing -/

/-- The names in resolution, and the entries whose names are not, are together no more than all entries. -/
def Fits (scope : Scope) (resolving : List String) : Prop :=
  resolving.length + scope.entries.names.countP (fun n => n ∉ resolving) ≤ scope.entries.size

theorem fits_nil (scope : Scope) : Fits scope [] := by
  simp [Fits, Bindings.names, Bindings.size]

theorem Fits.calls {scope : Scope} {resolving resolving' : List String} {e e' : Expr} (h : Fits scope resolving)
    (called : Calls scope resolving e resolving' e') : Fits scope resolving' := by
  cases called with
  | part => exact h
  | name bound fresh =>
    have fewer := countP_cons_lt (mem_names_of_bound bound) fresh
    unfold Fits at h ⊢
    rw [List.length_cons]
    omega

/-- With a depth limit as great as the number of names, there is always room for one more. -/
theorem outcome_ne_depthExceeded {scope : Scope} (enough : scope.entries.size ≤ scope.maxDepth) (e : Expr)
    (limit : Int) : outcome scope [] e ≠ .error (.depthExceeded limit) := by
  intro fails
  obtain ⟨resolving, e', visits, own⟩ := exists_visit_of_error fails
  have fits : Fits scope resolving :=
    visits.keeps (fun resolving _ => Fits scope resolving) (fun _ _ _ _ => Fits.calls) (fits_nil scope)
  cases own with
  | form fault => cases fault
  | operation fault => cases fault
  | depth bound fresh deep =>
    have fewer := countP_cons_lt (mem_names_of_bound bound) fresh
    unfold Fits at fits
    omega

end Evaluation

theorem Failure.kind_eq_depthLimit_iff {failure : Failure} :
    failure.kind = .depthLimit ↔ ∃ limit, failure = .depthExceeded limit := by
  cases failure <;> simp [kind]

/-- The depth limit does nothing but cut evaluation off: an outcome that is no failure of the limit is the same under
every greater limit. A limit as great as the number of names cuts nothing off, even where names refer to one another
in a circle. -/
theorem Scope.evaluate_eq_of_le_maxDepth (entries : Bindings (Option Expr)) (e : Expr) :
    (∀ d d' : Int, d ≤ d' →
        (∀ failure, (⟨entries, d⟩ : Scope).evaluate e = .error failure → failure.kind ≠ .depthLimit) →
        (⟨entries, d'⟩ : Scope).evaluate e = (⟨entries, d⟩ : Scope).evaluate e)
      ∧ ∀ d : Int, entries.size ≤ d → ∀ failure, (⟨entries, d⟩ : Scope).evaluate e = .error failure →
          failure.kind ≠ .depthLimit := by
  constructor
  · intro d d' le uncut
    have free : Evaluation.Freer (·.kind = .depthLimit) ⟨entries, d⟩ [] ⟨entries, d'⟩ [] :=
      ⟨rfl, List.Subset.refl _, by simpa using le, fun _ => rfl, .inl rfl⟩
    exact (Evaluation.evaluate_refines (Evaluation.outcome_refines free e)).eq_of_not_aside uncut
  · intro d enough failure fails cut
    obtain ⟨limit, rfl⟩ := Failure.kind_eq_depthLimit_iff.1 cut
    exact Evaluation.outcome_ne_depthExceeded enough e limit (Evaluation.outcome_of_evaluate_error fails)

/-- Two names that refer to each other, of which the limit 1 lets only one be resolved. -/
theorem Scope.evaluate_eq_of_le_maxDepth_circle :
    let entries := (Bindings.empty.insert "a" (some (.path ["b"]))).insert "b" (some (.path ["a"]))
    (⟨entries, 1⟩ : Scope).evaluate (.path ["a"]) = .error (.depthExceeded 1)
      ∧ (⟨entries, 2⟩ : Scope).evaluate (.path ["a"]) = .error (.cyclicReference ["a", "b", "a"])
      ∧ (⟨entries, 64⟩ : Scope).evaluate (.path ["a"]) = .error (.cyclicReference ["a", "b", "a"]) := by
  intro entries
  have stopped : (⟨entries, 2⟩ : Scope).evaluate (.path ["a"]) = .error (.cyclicReference ["a", "b", "a"]) := rfl
  obtain ⟨same, uncut⟩ := Scope.evaluate_eq_of_le_maxDepth entries (.path ["a"])
  refine ⟨rfl, stopped, ?_⟩
  rw [same 2 64 (by decide) (uncut 2 (by decide)), stopped]

end NamedExpr
