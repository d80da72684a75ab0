import Mathlib.Data.List.Chain
import NamedExpr.Proofs.Visits
/-!
# Cycles of names

The names in resolution are a path of references: the query refers to the outermost, and the expression of each to
the one inside of it (`Scope.Leads`). So the names from one that is met again up to it are a cycle of references, and
where no references go in a circle no evaluation reports one, however many ways lead to a name
(`Scope.evaluate_cyclicReference`).
-/

namespace NamedExpr

namespace Scope

variable {scope : Scope} {query tree : Expr} {resolving : List String} {n : String}

/-- The names `resolving`, innermost first, can be in resolution while `query` is evaluated: the query refers to the
outermost, and the expression of each to the one inside of it. The innermost stands for `tree`, which is the query if
there are no names. -/
inductive Leads (scope : Scope) (query : Expr) : List String → Expr → Prop where
  | start : Leads scope query [] query
  | name {resolving : List String} {n : String} {tree e : Expr} (leads : Leads scope query resolving tree)
      (refers : tree.Refers n) (fresh : n ∉ resolving) (bound : scope.entries.get? n = some (some e)) :
      Leads scope query (n :: resolving) e

namespace Leads

theorem nodup (leads : Leads scope query resolving tree) : resolving.Nodup := by
  induction leads with
  | start => exact List.nodup_nil
  | name _ _ fresh _ ih => exact List.nodup_cons.2 ⟨fresh, ih⟩

theorem bound (leads : Leads scope query resolving tree) :
    ∀ n ∈ resolving, ∃ e, scope.entries.get? n = some (some e) := by
  induction leads with
  | start => simp
  | name _ _ _ bound ih => exact List.forall_mem_cons.2 ⟨⟨_, bound⟩, ih⟩

/-- Whatever the innermost expression refers to is reached. -/
theorem reaches (leads : Leads scope query resolving tree) (refers : tree.Refers n) : scope.Reaches query n := by
  induction leads generalizing n with
  | start => exact .here refers
  | name _ below _ bound ih => exact .on (ih below) ⟨_, bound, refers⟩

theorem reaches_of_mem (leads : Leads scope query resolving tree) : ∀ n ∈ resolving, scope.Reaches query n := by
  induction leads with
  | start => simp
  | name below refers _ _ ih => exact List.forall_mem_cons.2 ⟨below.reaches refers, ih⟩

/-- A name that the innermost expression refers to makes the path longer. -/
theorem isChain (leads : Leads scope query resolving tree) (refers : tree.Refers n) :
    List.IsChain (fun a b => scope.RefersTo b a) (n :: resolving) := by
  induction leads generalizing n with
  | start => exact .singleton n
  | name _ below _ bound ih => exact List.isChain_cons_cons.2 ⟨⟨_, bound, refers⟩, ih below⟩

end Leads

/-- Wherever evaluation comes, the names in resolution are a path of references. -/
theorem exists_leads_of_visits {e : Expr} (visits : Evaluation.Visits scope [] query resolving e) :
    ∃ tree, Leads scope query resolving tree ∧ ∀ n, e.Refers n → tree.Refers n := by
  apply visits.keeps (fun resolving e => ∃ tree, Leads scope query resolving tree ∧ ∀ n, e.Refers n → tree.Refers n)
  · rintro resolving e resolving' e' ⟨tree, leads, inTree⟩ called
    cases called with
    | part member => exact ⟨tree, leads, fun n refers => inTree n (.part member refers)⟩
    | name bound fresh => exact ⟨e', .name leads (inTree _ (.path _)) fresh bound, fun _ => id⟩
  · exact ⟨query, .start, fun _ => id⟩

/-! ## Closing a cycle -/

/-- A closed path of references: it ends in the name that it starts with, and no name comes twice otherwise. -/
structure IsCycle (scope : Scope) (chain : List String) : Prop where
  closed : ∃ first rest, chain = first :: rest ++ [first] ∧ (first :: rest).Nodup
  bound : ∀ n ∈ chain, ∃ e, scope.entries.get? n = some (some e)
  refers : List.IsChain scope.RefersTo chain

theorem exists_eq_takeWhile_append {names : List String} (member : n ∈ names) :
    ∃ below, names = names.takeWhile (· ≠ n) ++ n :: below := by
  induction names with
  | nil => cases member
  | cons m names ih =>
    by_cases same : m = n
    · subst same
      exact ⟨names, by simp⟩
    · obtain ⟨below, shape⟩ := ih ((List.mem_cons.1 member).resolve_left (Ne.symm same))
      refine ⟨below, ?_⟩
      rw [List.takeWhile_cons_of_pos (by simpa using same), List.cons_append, ← shape]

/-- The names of a cycle are in resolution. -/
theorem cycle_subset (met : n ∈ resolving) : Evaluation.cycle n resolving ⊆ resolving := by
  intro m member
  have either : m = n ∨ m ∈ resolving.takeWhile (· ≠ n) := by
    simp only [Evaluation.cycle, List.mem_cons, List.mem_append, List.mem_reverse, List.not_mem_nil, or_false] at member
    tauto
  obtain rfl | before := either
  · exact met
  · exact (List.takeWhile_subset _) before

/-- A name in resolution that the innermost expression refers to closes a cycle. -/
theorem Leads.isCycle (leads : Leads scope query resolving tree) (refers : tree.Refers n) (met : n ∈ resolving) :
    scope.IsCycle (Evaluation.cycle n resolving) := by
  obtain ⟨below, shape⟩ := exists_eq_takeWhile_append met
  have reversed : Evaluation.cycle n resolving = (n :: resolving.takeWhile (· ≠ n) ++ [n]).reverse := by
    simp [Evaluation.cycle]
  constructor
  · refine ⟨n, (resolving.takeWhile (· ≠ n)).reverse, rfl, ?_⟩
    have distinct := leads.nodup
    rw [shape, List.nodup_append] at distinct
    obtain ⟨inside, -, apart⟩ := distinct
    refine List.nodup_cons.2 ⟨fun member => ?_, List.nodup_reverse.2 inside⟩
    exact apart n (List.mem_reverse.1 member) n List.mem_cons_self rfl
  · intro m member
    exact leads.bound m (cycle_subset met member)
  · have path : List.IsChain (fun a b => scope.RefersTo b a)
        ((n :: resolving.takeWhile (· ≠ n) ++ [n]) ++ below) := by
      rw [List.append_assoc, List.cons_append, List.singleton_append, ← shape]
      exact leads.isChain refers
    rw [reversed, List.isChain_reverse]
    exact path.left_of_append

theorem transGen_of_isChain {related : String → String → Prop} {first last : String} {between : List String}
    (chain : List.IsChain related (first :: between ++ [last])) : Relation.TransGen related first last := by
  induction between generalizing first with
  | nil => exact .single (List.isChain_pair.1 chain)
  | cons next between ih =>
    obtain ⟨step, rest⟩ := List.isChain_cons_cons.1 chain
    exact .trans (.single step) (ih rest)

end Scope

theorem Failure.kind_eq_cyclicReference_iff {failure : Failure} :
    failure.kind = .cyclicReference ↔ ∃ chain, failure = .cyclicReference chain := by
  cases failure <;> simp [kind]

/-- A cycle that evaluation reports is one: it is closed, its names are distinct and each stands for an expression that
refers to the next, and the query reaches them. So where no references between names go in a circle, no evaluation
reports one. -/
theorem Scope.evaluate_cyclicReference (scope : Scope) :
    (∀ query failure, scope.evaluate query = .error failure → failure.kind = .cyclicReference →
        ∃ chain, failure = .cyclicReference chain ∧ scope.IsCycle chain ∧ ∀ n ∈ chain, scope.Reaches query n)
      ∧ ((∀ n, ¬Relation.TransGen scope.RefersTo n n) →
        ∀ query failure, scope.evaluate query = .error failure → failure.kind ≠ .cyclicReference) := by
  have sound (query : Expr) (failure : Failure) (fails : scope.evaluate query = .error failure)
      (cyclic : failure.kind = .cyclicReference) :
      ∃ chain, failure = .cyclicReference chain ∧ scope.IsCycle chain ∧ ∀ n ∈ chain, scope.Reaches query n := by
    obtain ⟨chain, rfl⟩ := Failure.kind_eq_cyclicReference_iff.1 cyclic
    obtain ⟨resolving, e, visits, own⟩ := Evaluation.exists_visit_of_error (Evaluation.outcome_of_evaluate_error fails)
    obtain ⟨tree, leads, inTree⟩ := exists_leads_of_visits visits
    cases own with
    | form fault => cases fault
    | operation fault => cases fault
    | cycle bound met =>
      refine ⟨_, rfl, leads.isCycle (inTree _ (.path _)) met, fun n member => ?_⟩
      exact leads.reaches_of_mem n (cycle_subset met member)
  refine ⟨sound, fun acyclic query failure fails cyclic => ?_⟩
  obtain ⟨chain, -, ⟨⟨first, rest, rfl, -⟩, -, refers⟩, -⟩ := sound query failure fails cyclic
  exact acyclic first (transGen_of_isChain refers)

/-- Two names that refer to each other are a cycle, and a name that is referred to twice is none. -/
theorem Scope.evaluate_cyclicReference_shared :
    let circle : Scope := ⟨(Bindings.empty.insert "a" (some (.path ["b"]))).insert "b" (some (.path ["a"])), 64⟩
    let shared : Scope :=
      ⟨(Bindings.empty.insert "x" (some (.binary "+" (.path ["y"]) (.path ["y"])))).insert "y"
        (some (.literal (.int 1))), 64⟩
    (circle.evaluate (.paren (.path ["a"])) = .error (.cyclicReference ["a", "b", "a"])
        ∧ circle.IsCycle ["a", "b", "a"])
      ∧ ∀ query failure, shared.evaluate query = .error failure → failure.kind ≠ .cyclicReference := by
  intro circle shared
  constructor
  · have fails : circle.evaluate (.paren (.path ["a"])) = .error (.cyclicReference ["a", "b", "a"]) := rfl
    obtain ⟨chain, same, cycle, -⟩ := (Scope.evaluate_cyclicReference circle).1 _ _ fails rfl
    obtain rfl := Failure.cyclicReference.inj same
    exact ⟨fails, cycle⟩
  · -- the only reference is that of `x` to `y`
    have only (a b : String) (refersTo : shared.RefersTo a b) : a = "x" ∧ b = "y" := by
      obtain ⟨e, bound, refers⟩ := refersTo
      simp only [shared, Bindings.get?_insert, Bindings.get?_empty] at bound
      split at bound
      · cases bound
        cases refers with
        | part member => cases member
      · split at bound
        · cases bound
          cases refers with
          | part member refers =>
            obtain rfl : _ = Expr.path ["y"] := by simpa [Expr.parts, Expr.operands, Expr.operandsBefore] using member
            cases refers with
            | path => exact ⟨by assumption, rfl⟩
            | part member => cases member
        · cases bound
    have related (a b : String) (path : Relation.TransGen shared.RefersTo a b) : a = "x" ∧ b = "y" := by
      induction path with
      | single refersTo => exact only _ _ refersTo
      | tail _ refersTo ih => exact ⟨ih.1, (only _ _ refersTo).2⟩
    apply (Scope.evaluate_cyclicReference shared).2
    intro n path
    obtain ⟨first, last⟩ := related n n path
    rw [first] at last
    revert last
    decide

end NamedExpr
