import NamedExpr.Proofs.Steps
/-!
# How deep evaluations nest

What an expression comes to depends on nothing but what is evaluated for it (`step_congr`), and that makes either the
expression smaller or the names that may still be resolved fewer; `reach` adds up both, so every budget from it on
gives the same outcome (`resolve_of_reach_le`). `outcome` is that one: it satisfies the equation of the recursion
without any budget (`outcome_eq_step`), and it is what evaluation gives (`evaluate_eq_outcome`).
-/

namespace NamedExpr

/-! ## Outcomes up to a set of failures -/

/-- Two results are the same, unless the first is one of the failures that are set aside. -/
def Refines {α : Type} (aside : Failure → Prop) (x y : Except Failure α) : Prop :=
  x = y ∨ ∃ failure, aside failure ∧ x = .error failure

namespace Refines

variable {α β : Type} {aside : Failure → Prop}

theorem refl (x : Except Failure α) : Refines aside x x := .inl rfl

/-- With no failure set aside, the results are the same. -/
theorem eq {x y : Except Failure α} (h : Refines (fun _ => False) x y) : x = y := by
  obtain same | ⟨_, none, _⟩ := h
  · exact same
  · exact none.elim

theorem trans {aside' : Failure → Prop} {x y z : Except Failure α} (first : Refines aside x y)
    (second : Refines aside' y z) : Refines (fun failure => aside failure ∨ aside' failure) x z := by
  obtain rfl | ⟨failure, isAside, rfl⟩ := first
  · obtain rfl | ⟨failure, isAside, rfl⟩ := second
    · exact .refl _
    · exact .inr ⟨failure, .inr isAside, rfl⟩
  · exact .inr ⟨failure, .inl isAside, rfl⟩

theorem bind {x y : Except Failure α} {f g : α → Except Failure β} (first : Refines aside x y)
    (rest : ∀ a, Refines aside (f a) (g a)) : Refines aside (x >>= f) (y >>= g) := by
  obtain rfl | ⟨failure, isAside, rfl⟩ := first
  · cases x with
    | error failure => exact .refl _
    | ok a => exact rest a
  · exact .inr ⟨failure, isAside, rfl⟩

theorem map {x y : Except Failure α} (h : Refines aside x y) (f : α → β) : Refines aside (x.map f) (y.map f) := by
  obtain rfl | ⟨failure, isAside, rfl⟩ := h
  · exact .refl _
  · exact .inr ⟨failure, isAside, rfl⟩

/-- A result that is not set aside is kept. -/
theorem eq_of_not_aside {x y : Except Failure α} (h : Refines aside x y)
    (counts : ∀ failure, x = .error failure → ¬aside failure) : y = x := by
  obtain same | ⟨failure, isAside, failed⟩ := h
  · exact same.symm
  · exact absurd isAside (counts failure failed)

/-- Evaluating up to a set of failures goes step by step. -/
def along (aside : Failure → Prop) : Alongside (Except Failure) (Except Failure) where
  rel := Refines aside
  lift := fun _ => refl _
  pure := fun _ => refl _
  bind := bind

end Refines

namespace Evaluation

/-! ## What outcomes depend on -/

/-- An outcome changes only as the outcomes of what is evaluated for it do. -/
theorem step_refines {aside : Failure → Prop} {scope : Scope} {go go' : List String → Expr → Outcome}
    {resolving : List String} {e : Expr}
    (h : ∀ resolving' e', Calls scope resolving e resolving' e' → Refines aside (go resolving' e') (go' resolving' e')) :
    Refines aside (step (go resolving) scope (name scope go resolving) e)
      (step (go' resolving) scope (name scope go' resolving) e) := by
  refine step_along (Refines.along aside) (fun segments path => ?_) fun p member => h _ _ (.part member)
  subst path
  exact name_along (Refines.along aside) h

theorem step_congr {scope : Scope} {go go' : List String → Expr → Outcome} {resolving : List String} {e : Expr}
    (h : ∀ resolving' e', Calls scope resolving e resolving' e' → go resolving' e' = go' resolving' e') :
    step (go resolving) scope (name scope go resolving) e
      = step (go' resolving) scope (name scope go' resolving) e :=
  (step_refines fun resolving' e' calls => .inl (h resolving' e' calls)).eq

/-- A budget that is greater by one changes nothing but what exhausts the smaller one. -/
theorem resolve_refines_succ (scope : Scope) (budget : Nat) (resolving : List String) (e : Expr) :
    Refines (· = .nestingExhausted) (resolve scope budget resolving e) (resolve scope (budget + 1) resolving e) := by
  induction budget generalizing resolving e with
  | zero => exact .inr ⟨_, rfl, rfl⟩
  | succ budget ih => exact step_refines fun resolving' e' _ => ih resolving' e'

/-! ## A budget that is always enough -/

/-- How many more names can be in resolution at once. -/
def room (scope : Scope) (resolving : List String) : Nat :=
  min (scope.maxDepth.toNat - resolving.length) (scope.entries.names.countP fun n => n ∉ resolving)

/-- How deep evaluations can stand in one another from here. -/
def reach (scope : Scope) (resolving : List String) (e : Expr) : Nat :=
  e.height + room scope resolving * scope.height

theorem countP_cons_lt {names resolving : List String} {n : String} (member : n ∈ names) (fresh : n ∉ resolving) :
    names.countP (fun m => m ∉ n :: resolving) < names.countP fun m => m ∉ resolving := by
  have fewer (names : List String) :
      names.countP (fun m => m ∉ n :: resolving) ≤ names.countP fun m => m ∉ resolving := by
    apply List.countP_mono_left
    intro m _ h
    simp only [List.mem_cons, decide_eq_true_eq, not_or] at h ⊢
    exact h.2
  induction names with
  | nil => cases member
  | cons m names ih =>
    obtain rfl | later := List.mem_cons.1 member
    · have rest := fewer names
      simp [fresh] at rest ⊢
      omega
    · have rest := ih later
      have first := fewer [m]
      simp only [List.countP_cons, List.countP_nil] at first ⊢
      omega

theorem mem_names {scope : Scope} {n : String} {bound : Option Expr} (found : scope.entries.get? n = some bound) :
    (n, bound) ∈ scope.entries.entries := Bindings.get?_eq_some_iff.1 found

theorem mem_names_of_bound {scope : Scope} {n : String} {bound : Option Expr}
    (found : scope.entries.get? n = some bound) : n ∈ scope.entries.names :=
  List.mem_map.2 ⟨_, mem_names found, rfl⟩

theorem height_le_of_bound {scope : Scope} {n : String} {e : Expr} (found : scope.entries.get? n = some (some e)) :
    e.height ≤ scope.height := by
  have member := mem_names found
  unfold Scope.height
  generalize scope.entries.entries = entries at member ⊢
  induction entries with
  | nil => cases member
  | cons first rest ih =>
    rw [List.foldr_cons]
    obtain rfl | later := List.mem_cons.1 member
    · exact Nat.le_max_left _ _
    · exact Nat.le_trans (ih later) (Nat.le_max_right _ _)

/-- Resolving a name uses up room. -/
theorem room_cons_lt {scope : Scope} {resolving : List String} {n : String} {e : Expr}
    (bound : scope.entries.get? n = some (some e)) (fresh : n ∉ resolving)
    (shallow : (resolving.length : Int) < scope.maxDepth) : room scope (n :: resolving) < room scope resolving := by
  have fewer := countP_cons_lt (mem_names_of_bound bound) fresh
  unfold room
  rw [List.length_cons]
  omega

/-- Whatever is evaluated for an expression reaches less deep. -/
theorem Calls.reach_lt {scope : Scope} {resolving resolving' : List String} {e e' : Expr}
    (calls : Calls scope resolving e resolving' e') : reach scope resolving' e' < reach scope resolving e := by
  unfold reach
  cases calls with
  | part member =>
    have := Expr.height_of_mem_parts member
    omega
  | name bound fresh shallow =>
    rename_i segments
    have used := room_cons_lt bound fresh shallow
    have low := height_le_of_bound bound
    have positive := Expr.height_pos (.path segments)
    have total : (room scope (Expr.pathName segments :: resolving) + 1) * scope.height
        ≤ room scope resolving * scope.height := Nat.mul_le_mul_right _ used
    rw [Nat.add_mul] at total
    omega

/-- What holds of an evaluation whenever it holds of all that is evaluated for it, holds of every evaluation. -/
theorem calls_induction {scope : Scope} {motive : List String → Expr → Prop}
    (step : ∀ resolving e, (∀ resolving' e', Calls scope resolving e resolving' e' → motive resolving' e') →
      motive resolving e) (resolving : List String) (e : Expr) : motive resolving e := by
  have bounded (bound : Nat) : ∀ resolving e, reach scope resolving e < bound → motive resolving e := by
    induction bound with
    | zero => exact fun _ _ impossible => absurd impossible (Nat.not_lt_zero _)
    | succ bound ih =>
      intro resolving e low
      refine step resolving e fun resolving' e' calls => ih _ _ ?_
      exact Nat.lt_of_lt_of_le calls.reach_lt (Nat.le_of_lt_succ low)
  exact bounded _ resolving e (Nat.lt_succ_self _)

/-- Budgets that are not exhausted make no difference. -/
theorem resolve_of_reach_le {scope : Scope} {budget budget' : Nat} {resolving : List String} {e : Expr}
    (enough : reach scope resolving e ≤ budget) (enough' : reach scope resolving e ≤ budget') :
    resolve scope budget resolving e = resolve scope budget' resolving e := by
  have positive : 0 < reach scope resolving e := Nat.add_pos_left e.height_pos _
  induction budget generalizing budget' resolving e with
  | zero => omega
  | succ budget ih =>
    obtain ⟨budget', rfl⟩ : ∃ k, budget' = k + 1 := ⟨budget' - 1, by omega⟩
    apply step_congr
    intro resolving' e' calls
    have less := calls.reach_lt
    exact ih (by omega) (by omega) (Nat.add_pos_left e'.height_pos _)

/-- What an expression comes to while names are being resolved. -/
def outcome (scope : Scope) (resolving : List String) (e : Expr) : Outcome :=
  resolve scope (reach scope resolving e) resolving e

theorem resolve_eq_outcome {scope : Scope} {budget : Nat} {resolving : List String} {e : Expr}
    (enough : reach scope resolving e ≤ budget) : resolve scope budget resolving e = outcome scope resolving e :=
  resolve_of_reach_le enough (Nat.le_refl _)

/-- An outcome is made of the outcomes of what is evaluated for it. -/
theorem outcome_eq_step (scope : Scope) (resolving : List String) (e : Expr) :
    outcome scope resolving e
      = step (outcome scope resolving) scope (name scope (outcome scope) resolving) e := by
  rw [← resolve_eq_outcome (Nat.le_succ (reach scope resolving e)), resolve]
  apply step_congr
  intro resolving' e' calls
  exact resolve_eq_outcome (Nat.le_of_lt calls.reach_lt)

/-- Whatever the budget, an evaluation that does not exhaust it comes to the outcome. -/
theorem resolve_refines_outcome (scope : Scope) (budget : Nat) (resolving : List String) (e : Expr) :
    Refines (· = .nestingExhausted) (resolve scope budget resolving e) (outcome scope resolving e) := by
  induction budget generalizing resolving e with
  | zero => exact .inr ⟨_, rfl, rfl⟩
  | succ budget ih =>
    rw [outcome_eq_step]
    exact step_refines fun resolving' e' _ => ih resolving' e'

theorem room_nil_le (scope : Scope) : room scope [] ≤ scope.depthBound := by
  have all : scope.entries.names.countP (fun n => n ∉ ([] : List String)) ≤ scope.entries.size := by
    simp [Bindings.names, Bindings.size]
  unfold room Scope.depthBound
  rw [List.length_nil]
  omega

/-- The bound on how deep the evaluation of an expression nests is enough. -/
theorem reach_le_nestingBound (scope : Scope) (e : Expr) : reach scope [] e ≤ scope.nestingBound e := by
  have names := Nat.mul_le_mul (room_nil_le scope) (Nat.le_max_right e.height scope.height)
  have tree := Nat.le_max_left e.height scope.height
  unfold reach Scope.nestingBound
  rw [Nat.add_mul, Nat.one_mul]
  omega

/-- Evaluation gives the value of the outcome. -/
theorem evaluate_eq_outcome (scope : Scope) (e : Expr) :
    scope.evaluate e = (outcome scope [] e).map Resolved.value := by
  rw [Scope.evaluate, Scope.evaluateWithin, resolve_eq_outcome (reach_le_nestingBound scope e)]

theorem evaluate_refines {aside : Failure → Prop} {scope scope' : Scope} {e e' : Expr}
    (h : Refines aside (outcome scope [] e) (outcome scope' [] e')) :
    Refines aside (scope.evaluate e) (scope'.evaluate e') := by
  rw [evaluate_eq_outcome, evaluate_eq_outcome]
  exact h.map Resolved.value

theorem evaluate_eq_ok_iff {scope : Scope} {e : Expr} {v : Value} :
    scope.evaluate e = .ok v ↔ ∃ r, outcome scope [] e = .ok r ∧ r.value = v := by
  rw [evaluate_eq_outcome]
  cases outcome scope [] e <;> simp [Except.map]

theorem outcome_of_evaluate_error {scope : Scope} {e : Expr} {failure : Failure}
    (fails : scope.evaluate e = .error failure) : outcome scope [] e = .error failure := by
  rw [evaluate_eq_outcome] at fails
  cases result : outcome scope [] e with
  | ok r =>
    rw [result] at fails
    cases fails
  | error failure' =>
    rw [result] at fails
    cases fails
    rfl

end Evaluation

end NamedExpr
