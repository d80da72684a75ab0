import NamedExpr.Proofs.DepthLimit
/-!
# Putting expressions in the place of their names

A name comes to the same as its expression in brackets, except that the name is in resolution meanwhile, so that a
guard may stop evaluation earlier: where one does not, putting the expressions in the place of all names in a query
(`Expr.inline`) changes nothing. Back again, one more name is in resolution, for which the limit has to be greater by
one, and which may be met again. But evaluating the expression of a name inside of itself is no less work than to
evaluate it, so where it is met again evaluation would come to no end but that of a guard in either place
(`Evaluation.entered_refines`).
-/

namespace NamedExpr

/-- Whether a failure is that of a guard: a name was met while it was being resolved, or too many names were. -/
def Failure.IsGuard (failure : Failure) : Prop := failure.kind = .cyclicReference ∨ failure.kind = .depthLimit

namespace Expr

/-! ## Inlining -/

mutual

/-- An expression with the expressions of names in the place of the names, in brackets: of all names that may be
evaluated, so neither of functions nor in what a field is taken of. -/
def inline (entries : Bindings (Option Expr)) : Expr → Expr
  | .path segments =>
    match entries.get? (pathName segments) with
    | some (some e) => .paren e
    | _ => .path segments
  | .unary symbol e => .unary symbol (inline entries e)
  | .reference e => .reference (inline entries e)
  | .paren e => .paren (inline entries e)
  | .binary symbol a b => .binary symbol (inline entries a) (inline entries b)
  | .methodCall e method args => .methodCall (inline entries e) method (inlineAll entries args)
  | .call function args => .call function (inlineAll entries args)
  | .array es => .array (inlineAll entries es)
  | .index a b => .index (inline entries a) (inline entries b)
  | .range a b inclusive => .range (inline entries a) (inline entries b) inclusive
  | .literal value => .literal value
  | .field e name => .field e name
  | .foreign shown => .foreign shown

/-- A row of expressions with the expressions of names in the place of the names. -/
def inlineAll (entries : Bindings (Option Expr)) : List Expr → List Expr
  | [] => []
  | e :: es => inline entries e :: inlineAll entries es

end

section

variable {entries : Bindings (Option Expr)} {segments : List String}

theorem inline_of_bound {t : Expr} (bound : entries.get? (pathName segments) = some (some t)) :
    inline entries (.path segments) = .paren t := by
  rw [inline, bound]

theorem inline_of_unbound (unbound : ∀ t, entries.get? (pathName segments) ≠ some (some t)) :
    inline entries (.path segments) = .path segments := by
  unfold inline
  split
  · rename_i t bound
    exact absurd bound (unbound t)
  · rfl

/-- Only names without expressions are left. -/
theorem unbound_of_inline {e : Expr} (left : inline entries e = .path segments) :
    ∀ t, entries.get? (pathName segments) ≠ some (some t) := by
  cases e with
  | path segments =>
    unfold inline at left
    split at left
    · cases left
    · rename_i unbound
      cases left
      exact unbound
  | _ => simp [inline] at left

theorem inlineAll_eq_map (es : List Expr) : inlineAll entries es = es.map (inline entries) := by
  induction es with
  | nil => rfl
  | cons e es ih => rw [inlineAll, ih, List.map_cons]

/-- No name turns into a run of operators. -/
theorem inline_ne_binary {e : Expr} (leaf : ∀ symbol a b, e ≠ .binary symbol a b) (symbol : String) (a b : Expr) :
    inline entries e ≠ .binary symbol a b := by
  cases e with
  | binary symbol a b => exact absurd rfl (leaf symbol a b)
  | path segments =>
    unfold inline
    split <;> simp
  | _ => simp [inline]

/-- A run keeps its operators, and the names among its operands are replaced one by one. -/
theorem run_inline (e : Expr) :
    (inline entries e).operands = e.operands.map (inline entries) ∧ (inline entries e).symbols = e.symbols := by
  induction e using run_induction with
  | binary symbol a b ihLeft ihRight =>
    rw [inline, operands_binary, operands_binary, symbols_binary, symbols_binary, List.map_append]
    exact ⟨by rw [ihLeft.1, ihRight.1], by rw [ihLeft.2, ihRight.2]⟩
  | leaf e leaf =>
    obtain ⟨only, none⟩ := operands_of_leaf leaf
    obtain ⟨only', none'⟩ := operands_of_leaf (@inline_ne_binary entries e leaf)
    exact ⟨by rw [only, only', List.map_singleton], by rw [none, none']⟩

/-- Whatever is no name with an expression keeps its form. -/
theorem bound_or_alike_inline (entries : Bindings (Option Expr)) (e : Expr) :
    (∃ segments t, e = .path segments ∧ entries.get? (pathName segments) = some (some t))
      ∨ e.Alike (fun p p' => p ∈ e.parts ∧ p' = inline entries p) (inline entries e) := by
  by_cases bound : ∃ segments t, e = .path segments ∧ entries.get? (pathName segments) = some (some t)
  · exact .inl bound
  right
  cases e with
  | path segments =>
    rw [inline_of_unbound fun t found => bound ⟨segments, t, rfl, found⟩]
    exact .path segments
  | literal value => exact .literal value
  | field e name => exact .field e e name
  | foreign shown => exact .foreign shown
  | unary symbol e => exact .unary symbol ⟨by simp [parts], rfl⟩
  | reference e => exact .reference ⟨by simp [parts], rfl⟩
  | paren e => exact .paren ⟨by simp [parts], rfl⟩
  | binary symbol a b =>
    obtain ⟨operands, symbols⟩ := @run_inline entries (.binary symbol a b)
    rw [inline] at operands symbols ⊢
    exact .binary symbols.symm (operands ▸ forall₂_map_parts (List.Subset.refl _))
  | methodCall e method args =>
    rw [inline, inlineAll_eq_map]
    exact .methodCall method ⟨by simp [parts], rfl⟩ (forall₂_map_parts (by simp [parts]))
  | call function args =>
    rw [inline, inlineAll_eq_map]
    exact .call function (forall₂_map_parts (List.Subset.refl _))
  | array es =>
    rw [inline, inlineAll_eq_map]
    exact .array (forall₂_map_parts (List.Subset.refl _))
  | index a b => exact .index ⟨by simp [parts], rfl⟩ ⟨by simp [parts], rfl⟩
  | range a b inclusive => exact .range inclusive ⟨by simp [parts], rfl⟩ ⟨by simp [parts], rfl⟩

end

end Expr

/-- An operand that was missing still is, and no other is. -/
theorem Scope.misses_inline (scope : Scope) (e : Expr) : scope.misses (e.inline scope.entries) = scope.misses e := by
  cases e with
  | path segments =>
    unfold Expr.inline
    split
    · rename_i t bound
      simp [misses, Bindings.contains, bound]
    · rfl
  | _ => rfl

namespace Evaluation

/-! ## From a name to its expression -/

theorem outcome_paren (scope : Scope) (resolving : List String) (e : Expr) :
    outcome scope resolving (.paren e) = outcome scope resolving e := outcome_eq_step scope resolving (.paren e)

theorem outcome_path (scope : Scope) (resolving segments : List String) :
    outcome scope resolving (.path segments) = name scope (outcome scope) resolving (Expr.pathName segments) :=
  outcome_eq_step scope resolving (.path segments)

/-- A name comes to what its expression does, unless a guard stops it. -/
theorem path_refines {scope : Scope} {segments : List String} {t : Expr}
    (bound : scope.entries.get? (Expr.pathName segments) = some (some t)) (resolving : List String) :
    Refines Failure.IsGuard (outcome scope resolving (.path segments)) (outcome scope resolving t) := by
  rw [outcome_path, name_of_bound bound]
  split
  · exact .inr ⟨_, .inl rfl, rfl⟩
  · split
    · exact .inr ⟨_, .inr rfl, rfl⟩
    · have free : Freer Failure.IsGuard scope (Expr.pathName segments :: resolving) scope resolving :=
        ⟨rfl, by simp, by simp, fun _ => .inr rfl, .inr fun _ => .inl rfl⟩
      exact outcome_refines free t

/-- An expression comes to the same with expressions in the place of names, unless a guard stops it. -/
theorem inline_refines (scope : Scope) (resolving : List String) (e : Expr) :
    Refines Failure.IsGuard (outcome scope resolving e) (outcome scope resolving (e.inline scope.entries)) := by
  induction e using Expr.parts_induction with
  | step e ih =>
  obtain ⟨segments, t, rfl, bound⟩ | alike := e.bound_or_alike_inline scope.entries
  · rw [Expr.inline_of_bound bound, outcome_paren]
    exact path_refines bound resolving
  · rw [outcome_eq_step scope resolving e, outcome_eq_step]
    apply step_alike (Refines.along _) alike
    · exact fun _ _ => .refl _
    · rintro p _ ⟨member, rfl⟩
      exact ⟨ih p member, (scope.misses_inline p).symm⟩

/-! ## From an expression to its name -/

/-- Whether a failure stops evaluation with a budget: that of a guard, or that the budget was too small. -/
def IsStop (failure : Failure) : Prop := failure.IsGuard ∨ failure = .nestingExhausted

/-- Whether an evaluation was stopped. -/
def Stops (o : Outcome) : Prop := ∃ failure, IsStop failure ∧ o = .error failure

/-- An evaluation that is not stopped comes to the outcome. -/
theorem outcome_eq_of_not_stops {scope : Scope} {budget : Nat} {resolving : List String} {e : Expr}
    (answers : ¬Stops (resolve scope budget resolving e)) :
    outcome scope resolving e = resolve scope budget resolving e := by
  apply (resolve_refines_outcome scope budget resolving e).eq_of_not_aside
  intro failure fails exhausted
  exact answers ⟨failure, .inr exhausted, fails⟩

/-- If an evaluation is not stopped there is a least budget with which it is not: with less it is stopped, and all the
more while other names are in resolution. -/
theorem exists_least_budget {scope : Scope} {e : Expr} (answers : ¬Stops (outcome scope [] e)) :
    ∃ budget, ¬Stops (resolve scope budget [] e)
      ∧ ∀ less < budget, ∀ resolving, Stops (resolve scope less resolving e) := by
  classical
  have enough : ∃ budget, ¬Stops (resolve scope budget [] e) := ⟨reach scope [] e, answers⟩
  refine ⟨Nat.find enough, Nat.find_spec enough, fun less lt resolving => ?_⟩
  obtain ⟨failure, stopped, fails⟩ := not_not.1 (Nat.find_min enough lt)
  have free : Freer IsStop scope resolving scope [] :=
    ⟨rfl, by simp, by simp, fun _ => .inl (.inr rfl), .inr fun _ => .inl (.inl rfl)⟩
  obtain same | stops := resolve_refines free less e
  · exact ⟨failure, stopped, same.trans fails⟩
  · exact stops

section

variable {entries : Bindings (Option Expr)} {d : Int} {n : String} {t : Expr}

/-- With `n` in resolution below the others, and room for it, names come to the same: if `n` itself is met, evaluating
its expression is stopped. -/
theorem name_refines_below {go go' : List String → Expr → Outcome} (bound : entries.get? n = some (some t))
    (again : ∀ resolving, Stops (go resolving t))
    (inner : ∀ resolving e, Refines IsStop (go resolving e) (go' (resolving ++ [n]) e)) (resolving : List String)
    (m : String) :
    Refines IsStop (name ⟨entries, d⟩ go resolving m) (name ⟨entries, d + 1⟩ go' (resolving ++ [n]) m) := by
  by_cases known : ∃ e, entries.get? m = some (some e)
  · obtain ⟨e, known⟩ := known
    rw [name_of_bound known, name_of_bound known]
    by_cases met : m ∈ resolving
    · rw [if_pos met]
      exact .inr ⟨_, .inl (.inl rfl), rfl⟩
    rw [if_neg met]
    by_cases deep : d ≤ resolving.length
    · rw [if_pos deep]
      exact .inr ⟨_, .inl (.inr rfl), rfl⟩
    rw [if_neg deep]
    by_cases same : m = n
    · obtain rfl : e = t := by simpa [same, bound] using known.symm
      exact .inr (again _)
    rw [if_neg (by simp [met, same]), if_neg (by simp; omega)]
    exact inner (m :: resolving) e
  · have unbound := not_exists.1 known
    rw [name_of_unbound unbound, name_of_unbound unbound]
    exact .refl _

theorem resolve_refines_below (bound : entries.get? n = some (some t)) {budget : Nat}
    (again : ∀ less < budget, ∀ resolving, Stops (resolve ⟨entries, d⟩ less resolving t)) (resolving : List String)
    (e : Expr) :
    Refines IsStop (resolve ⟨entries, d⟩ budget resolving e)
      (resolve ⟨entries, d + 1⟩ budget (resolving ++ [n]) e) := by
  induction budget generalizing resolving e with
  | zero => exact .refl _
  | succ budget ih =>
    have inner := ih fun less lt => again less (Nat.lt_succ_of_lt lt)
    have alike : e.Alike (fun p p' => p = p') e := .refl fun _ _ => rfl
    apply step_alike (Refines.along _) alike
    · intro segments _
      exact name_refines_below bound (again budget (Nat.lt_succ_self _)) inner resolving _
    · rintro p _ rfl
      exact ⟨inner resolving p, rfl⟩

/-- The expression of a name comes to the same while that name is in resolution, unless a guard stops it where it is
not: the least budget with which it is not stopped is too small to evaluate it inside of itself. -/
theorem entered_refines (bound : entries.get? n = some (some t)) :
    Refines Failure.IsGuard (outcome ⟨entries, d⟩ [] t) (outcome ⟨entries, d + 1⟩ [n] t) := by
  by_cases stopped : Stops (outcome ⟨entries, d⟩ [] t)
  · obtain ⟨failure, guard | rfl, fails⟩ := stopped
    · exact .inr ⟨failure, guard, fails⟩
    · exact absurd fails (outcome_ne_exhausted _ _ _)
  · obtain ⟨budget, answers, again⟩ := exists_least_budget stopped
    have same := (resolve_refines_below bound again [] t).resolve_right answers
    have answers' : ¬Stops (resolve ⟨entries, d + 1⟩ budget [n] t) := by
      rw [same] at answers
      exact answers
    left
    rw [outcome_eq_of_not_stops answers, outcome_eq_of_not_stops answers']
    exact same

/-- An expression with expressions in the place of names comes to what it does with the names, if the limit is greater
by one, unless a guard stops it. -/
theorem refines_of_inline (nonneg : 0 ≤ d) (e : Expr) :
    Refines Failure.IsGuard (outcome ⟨entries, d⟩ [] (e.inline entries)) (outcome ⟨entries, d + 1⟩ [] e) := by
  induction e using Expr.parts_induction with
  | step e ih =>
  obtain ⟨segments, t, rfl, bound⟩ | alike := e.bound_or_alike_inline entries
  · rw [Expr.inline_of_bound bound, outcome_paren, outcome_path, name_of_bound bound, if_neg (by simp),
      if_neg (by simp; omega)]
    exact entered_refines bound
  · rw [outcome_eq_step, outcome_eq_step _ _ e]
    apply step_alike (Refines.along _) alike.flip
    · intro segments left
      have unbound := Expr.unbound_of_inline left
      rw [name_of_unbound unbound, name_of_unbound unbound]
      exact .refl _
    · rintro _ p ⟨member, rfl⟩
      exact ⟨ih p member, Scope.misses_inline ⟨entries, d⟩ p⟩

end

end Evaluation

/-- Names stand for their expressions. Where no guard stops evaluation, it gives the same with the expressions in
brackets in the place of all names that have one; and the same again with the names, if the limit lets one more of
them be resolved. -/
theorem Scope.evaluate_inline (entries : Bindings (Option Expr)) (e : Expr) {d : Int} (nonneg : 0 ≤ d) :
    ((∀ failure, (⟨entries, d⟩ : Scope).evaluate e = .error failure → ¬failure.IsGuard) →
        (⟨entries, d⟩ : Scope).evaluate (e.inline entries) = (⟨entries, d⟩ : Scope).evaluate e)
      ∧ ((∀ failure, (⟨entries, d⟩ : Scope).evaluate (e.inline entries) = .error failure → ¬failure.IsGuard) →
        (⟨entries, d + 1⟩ : Scope).evaluate e = (⟨entries, d⟩ : Scope).evaluate (e.inline entries)) := by
  constructor
  · intro unstopped
    exact (Evaluation.evaluate_refines (Evaluation.inline_refines ⟨entries, d⟩ [] e)).eq_of_not_aside unstopped
  · intro unstopped
    exact (Evaluation.evaluate_refines (Evaluation.refines_of_inline nonneg e)).eq_of_not_aside unstopped

/-- A sum that a name stands for is not torn apart by a product, and a name that the sum itself needs takes one more
place in resolution. -/
theorem Scope.evaluate_inline_product :
    let entries := (Bindings.empty.insert "x" (some (.binary "+" (.path ["y"]) (.literal (.int 2))))).insert "y"
      (some (.literal (.int 1)))
    let product := Expr.binary "*" (.path ["x"]) (.literal (.int 2))
    (⟨entries, 2⟩ : Scope).evaluate (product.inline entries) = .ok (.int 6)
      ∧ (⟨entries, 1⟩ : Scope).evaluate product = .error (.depthExceeded 1)
      ∧ (⟨entries, 1⟩ : Scope).evaluate (product.inline entries) = .ok (.int 6)
      ∧ (⟨entries, 2⟩ : Scope).evaluate product = .ok (.int 6) := by
  intro entries product
  have named : (⟨entries, 2⟩ : Scope).evaluate product = .ok (.int 6) := rfl
  have inlined : (⟨entries, 1⟩ : Scope).evaluate (product.inline entries) = .ok (.int 6) := rfl
  refine ⟨?_, rfl, inlined, ?_⟩
  · rw [(Scope.evaluate_inline entries product (show (0 : Int) ≤ 2 by decide)).1 (by simp [named]), named]
  · have again := (Scope.evaluate_inline entries product (show (0 : Int) ≤ 1 by decide)).2 (by simp [inlined])
    exact again.trans inlined

end NamedExpr
