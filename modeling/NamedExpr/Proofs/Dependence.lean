import NamedExpr.Context
import NamedExpr.Proofs.Stack
import NamedExpr.Proofs.Visits
/-!
# What a result depends on

Evaluating an expression looks up no other names than those it reaches (`Scope.Reaches`): those in the expression
itself, and those in the expressions that such names stand for. Every look-up is one of these, whether a name is
resolved or only tested for being declared (`resolve_of_agree`), so a change to the other names cannot show
(`Context.evaluate_of_agree`). A context does not keep the order either in which names were put into it.
-/

namespace NamedExpr

namespace Evaluation

/-! ## Agreement on the names that are reached -/

section

variable {scope scope' : Scope} {names : String → Prop}

/-- Two scopes that agree on some names agree on whether an operand among them is missing. -/
theorem misses_of_agree (agree : ∀ n, names n → scope'.entries.get? n = scope.entries.get? n) {e : Expr}
    (inside : ∀ n, e.Refers n → names n) : scope'.misses e = scope.misses e := by
  cases e with
  | path segments =>
    have same := agree _ (inside _ (.path segments))
    simp only [Scope.misses, Bindings.contains, same]
  | _ => rfl

/-- A name on which two scopes agree comes to the same in both, if its expression does. -/
theorem name_of_agree {go go' : List String → Expr → Outcome} {resolving : List String} {n : String}
    (depth : scope'.maxDepth = scope.maxDepth) (same : scope'.entries.get? n = scope.entries.get? n)
    (inner : ∀ e, scope.entries.get? n = some (some e) → go' (n :: resolving) e = go (n :: resolving) e) :
    name scope' go' resolving n = name scope go resolving n := by
  by_cases bound : ∃ e, scope.entries.get? n = some (some e)
  · obtain ⟨e, bound⟩ := bound
    rw [name_of_bound bound, name_of_bound (same.trans bound), depth, inner e bound]
  · have unbound := not_exists.1 bound
    rw [name_of_unbound unbound, name_of_unbound (same ▸ unbound)]

/-- Where two scopes agree on a set of names that holds, with a name, those that its expression refers to, every
expression that refers to no others comes to the same. -/
theorem resolve_of_agree (depth : scope'.maxDepth = scope.maxDepth)
    (agree : ∀ n, names n → scope'.entries.get? n = scope.entries.get? n)
    (closed : ∀ a b, names a → scope.RefersTo a b → names b) (budget : Nat) (resolving : List String) {e : Expr}
    (inside : ∀ n, e.Refers n → names n) :
    resolve scope' budget resolving e = resolve scope budget resolving e := by
  induction budget generalizing resolving e with
  | zero => rfl
  | succ budget ih =>
    apply Refines.eq
    have alike : e.Alike (fun p p' => p ∈ e.parts ∧ p = p') e := .refl fun p member => ⟨member, rfl⟩
    apply step_alike (Refines.along _) alike
    · rintro segments rfl
      have named := inside _ (.path segments)
      left
      apply name_of_agree depth (agree _ named)
      intro t bound
      exact ih _ fun n refers => closed _ n named ⟨t, bound, refers⟩
    · rintro p _ ⟨member, rfl⟩
      have below : ∀ n, p.Refers n → names n := fun n refers => inside n (.part member refers)
      exact ⟨.inl (ih resolving below), misses_of_agree agree below⟩

/-- The same without a budget. -/
theorem outcome_of_agree (depth : scope'.maxDepth = scope.maxDepth)
    (agree : ∀ n, names n → scope'.entries.get? n = scope.entries.get? n)
    (closed : ∀ a b, names a → scope.RefersTo a b → names b) (resolving : List String) {e : Expr}
    (inside : ∀ n, e.Refers n → names n) : outcome scope' resolving e = outcome scope resolving e := by
  have same := resolve_of_agree depth agree closed (reach scope' resolving e + reach scope resolving e) resolving inside
  rwa [resolve_eq_outcome (Nat.le_add_right _ _), resolve_eq_outcome (Nat.le_add_left _ _)] at same

end

end Evaluation

/-- Scopes that agree on what an expression reaches in one of them agree on what it reaches. -/
theorem Scope.reaches_iff_of_agree {scope scope' : Scope} {e : Expr}
    (agree : ∀ n, scope.Reaches e n → scope'.entries.get? n = scope.entries.get? n) (n : String) :
    scope'.Reaches e n ↔ scope.Reaches e n := by
  constructor
  · intro reaches
    induction reaches with
    | here refers => exact .here refers
    | on _ refersTo ih =>
      obtain ⟨t, bound, refers⟩ := refersTo
      exact .on ih ⟨t, (agree _ ih).symm.trans bound, refers⟩
  · intro reaches
    induction reaches with
    | here refers => exact .here refers
    | on below refersTo ih =>
      obtain ⟨t, bound, refers⟩ := refersTo
      exact .on ih ⟨t, (agree _ below).trans bound, refers⟩

/-- An expression refers to no names but those that stand in it as paths. -/
theorem Expr.Refers.mem_pathNames {e : Expr} {n : String} (refers : e.Refers n) : n ∈ e.pathNames := by
  induction refers with
  | path segments => simp [pathNames]
  | part member _ ih => exact pathNames_of_mem_parts member ih

/-- What an expression reaches is in every set of names that holds the names in it and, with a name, those in its
expression. -/
theorem Scope.Reaches.mem_of_closed {scope : Scope} {e : Expr} {names : List String} (here : e.pathNames ⊆ names)
    (on : ∀ a ∈ names, ∀ t, scope.entries.get? a = some (some t) → t.pathNames ⊆ names) {n : String}
    (reaches : scope.Reaches e n) : n ∈ names := by
  induction reaches with
  | here refers => exact here refers.mem_pathNames
  | on _ refersTo ih =>
    obtain ⟨t, bound, refers⟩ := refersTo
    exact on _ ih t bound refers.mem_pathNames

namespace Context

/-- An expression is evaluated to the same in both contexts, with the limit on how deep the evaluation of a text nests
and without it, and so is every text that is read as it. -/
structure Alike (c c' : Context) (e : Expr) : Prop where
  unlimited : c'.scope.evaluate e = c.scope.evaluate e
  limited : ∀ source, c'.evaluateExpr source e = c.evaluateExpr source e
  ofText : ∀ source, Expr.read source = .ok e → c'.evaluate source = c.evaluate source

theorem alike_of_agree {c c' : Context} {e : Expr} (depth : c'.maxDepth = c.maxDepth)
    (agree : ∀ n, c.scope.Reaches e n → c'.entries.get? n = c.entries.get? n) : c.Alike c' e := by
  have inScope : ∀ n, c.scope.Reaches e n → c'.scope.entries.get? n = c.scope.entries.get? n := by
    intro n reaches
    simp only [scope, Bindings.get?_map, agree n reaches]
  have closed : ∀ a b, c.scope.Reaches e a → c.scope.RefersTo a b → c.scope.Reaches e b := fun _ _ => .on
  have limited (source : String) : c'.evaluateExpr source e = c.evaluateExpr source e := by
    have same := Evaluation.resolve_of_agree depth inScope closed nestingLimit [] fun _ => .here
    simp only [evaluateExpr, Scope.evaluateWithin, same]
  refine ⟨?_, limited, ?_⟩
  · rw [Evaluation.evaluate_eq_outcome, Evaluation.evaluate_eq_outcome,
      Evaluation.outcome_of_agree depth inScope closed [] fun _ => .here]
  · intro source read
    simp only [evaluate, read, limited]

/-! ## Contexts that are put together -/

/-- The context with further definitions, put in one after the other. -/
def insertAll (c : Context) (definitions : List (String × String)) : Except Failure Context :=
  definitions.foldlM (fun c definition => c.insert definition.1 definition.2) c

theorem insert_eq_ok_iff {c c' : Context} {name source : String} :
    c.insert name source = .ok c'
      ↔ ∃ e, Expr.read source = .ok e ∧ c' = { c with entries := c.entries.insert name e } := by
  unfold insert
  cases Expr.read source with
  | error failure => simp [Except.map]
  | ok e => simp [Except.map, eq_comm]

theorem insertAll_cons_eq_ok_iff {c built : Context} {name source : String} {rest : List (String × String)} :
    c.insertAll ((name, source) :: rest) = .ok built
      ↔ ∃ e, Expr.read source = .ok e ∧ insertAll { c with entries := c.entries.insert name e } rest = .ok built := by
  have unfolded : c.insertAll ((name, source) :: rest) = c.insert name source >>= fun c' => c'.insertAll rest := rfl
  rw [unfolded]
  constructor
  · intro ok
    cases inserted : c.insert name source with
    | error failure =>
      rw [inserted] at ok
      cases ok
    | ok c' =>
      rw [inserted] at ok
      obtain ⟨e, read, rfl⟩ := insert_eq_ok_iff.1 inserted
      exact ⟨e, read, ok⟩
  · rintro ⟨e, read, ok⟩
    rw [insert_eq_ok_iff.2 ⟨e, read, rfl⟩]
    exact ok

/-- Entries of different names may be put in in either order. -/
theorem insert_comm {α : Type} (b : Bindings α) {m n : String} (differ : m ≠ n) (v w : α) :
    (b.insert m v).insert n w = (b.insert n w).insert m v := by
  apply Bindings.ext_get?
  intro k
  simp only [Bindings.get?_insert]
  by_cases first : k = m
  · have : k ≠ n := fun second => differ (first.symm.trans second)
    simp [first, differ]
  · simp [first]

/-- Definitions of distinct names may be put in in any order. -/
theorem insertAll_of_perm {definitions definitions' : List (String × String)} (perm : definitions.Perm definitions')
    (distinct : (definitions.map Prod.fst).Nodup) {c built : Context} (ok : c.insertAll definitions = .ok built) :
    c.insertAll definitions' = .ok built := by
  induction perm generalizing c with
  | nil => exact ok
  | cons definition _ ih =>
    obtain ⟨e, read, rest⟩ := insertAll_cons_eq_ok_iff.1 ok
    exact insertAll_cons_eq_ok_iff.2 ⟨e, read, ih (List.nodup_cons.1 distinct).2 rest⟩
  | swap first second rest =>
    have differ : second.1 ≠ first.1 := by
      intro same
      exact (List.nodup_cons.1 distinct).1 (by simp [same])
    obtain ⟨e, read, ok⟩ := insertAll_cons_eq_ok_iff.1 ok
    obtain ⟨e', read', ok⟩ := insertAll_cons_eq_ok_iff.1 ok
    rw [insert_comm c.entries differ] at ok
    exact insertAll_cons_eq_ok_iff.2 ⟨e', read', insertAll_cons_eq_ok_iff.2 ⟨e, read, ok⟩⟩
  | trans before _ ihBefore ihAfter =>
    exact ihAfter ((before.map Prod.fst).nodup_iff.1 distinct) (ihBefore distinct ok)

/-- A result depends on nothing but the depth limit and the names that the expression reaches, and a context that agrees
on those reaches no others. So putting in, replacing or removing a name that is not reached changes nothing, and neither
does the order in which definitions of distinct names are put in. -/
theorem evaluate_of_agree (c : Context) :
    (∀ (c' : Context) (e : Expr), c'.maxDepth = c.maxDepth →
        (∀ n, c.scope.Reaches e n → c'.entries.get? n = c.entries.get? n) →
        c.Alike c' e ∧ ∀ n, c'.scope.Reaches e n ↔ c.scope.Reaches e n)
      ∧ (∀ (e : Expr) (name : String), ¬c.scope.Reaches e name →
        (∀ source c', c.insert name source = .ok c' → c.Alike c' e) ∧ c.Alike (c.remove name) e)
      ∧ ∀ definitions definitions' : List (String × String), definitions.Perm definitions' →
        (definitions.map Prod.fst).Nodup →
        ∀ built, c.insertAll definitions = .ok built → c.insertAll definitions' = .ok built := by
  refine ⟨?_, ?_, ?_⟩
  · intro c' e depth agree
    refine ⟨alike_of_agree depth agree, fun n => Scope.reaches_iff_of_agree (fun n reaches => ?_) n⟩
    simp only [scope, Bindings.get?_map, agree n reaches]
  · intro e name unreached
    have apart : ∀ n, c.scope.Reaches e n → n ≠ name := by
      rintro n reaches rfl
      exact unreached reaches
    constructor
    · intro source c' inserted
      obtain ⟨t, _, rfl⟩ := insert_eq_ok_iff.1 inserted
      refine alike_of_agree rfl fun n reaches => ?_
      rw [Bindings.get?_insert, if_neg (apart n reaches)]
    · refine alike_of_agree rfl fun n reaches => ?_
      rw [remove, Bindings.get?_erase, if_neg (apart n reaches)]
  · intro definitions definitions' perm distinct built ok
    exact insertAll_of_perm perm distinct ok

/-- A name that the expression does not reach may be bound to itself; it may be bound before those that are reached. -/
theorem evaluate_of_agree_unreached :
    let c : Context := ⟨(Bindings.empty.insert "a" (.path ["b"])).insert "b" (.literal (.int 2)), 64⟩
    let circular : Context := ⟨c.entries.insert "z" (.path ["z"]), 64⟩
    let sum := Expr.binary "+" (.path ["a"]) (.literal (.int 1))
    circular.scope.evaluate sum = .ok (.int 3)
      ∧ (circular.remove "z").evaluate "a + 1" = circular.evaluate "a + 1"
      ∧ (empty 64).insertAll [("z", "z"), ("b", "2"), ("a", "b")]
        = (empty 64).insertAll [("a", "b"), ("b", "2"), ("z", "z")] := by
  intro c circular sum
  have reached {d : Context} (same : ∀ n ∈ ["a", "b"], d.entries.get? n = c.entries.get? n) {n : String}
      (reaches : d.scope.Reaches sum n) : n ∈ ["a", "b"] := by
    refine reaches.mem_of_closed (by decide) fun m member t bound => ?_
    simp only [scope, Bindings.get?_map, same m member] at bound
    have either : m = "a" ∨ m = "b" := by simpa using member
    obtain rfl | rfl := either <;> (cases bound; decide)
  have bound : ∀ n ∈ ["a", "b"], circular.entries.get? n = c.entries.get? n := by
    intro n member
    have other : n ≠ "z" := by
      rintro rfl
      revert member
      decide
    rw [Bindings.get?_insert, if_neg other]
  have unreached : ¬circular.scope.Reaches sum "z" := fun reaches => absurd (reached bound reaches) (by decide)
  refine ⟨?_, ((evaluate_of_agree circular).2.1 sum "z" unreached).2.ofText "a + 1" rfl, ?_⟩
  · have agree : ∀ n, c.scope.Reaches sum n → circular.entries.get? n = c.entries.get? n :=
      fun n reaches => bound n (reached (fun _ _ => rfl) reaches)
    exact ((evaluate_of_agree c).1 circular sum rfl agree).1.unlimited.trans rfl
  · have built : (empty 64).insertAll [("a", "b"), ("b", "2"), ("z", "z")] = .ok circular := rfl
    rw [built]
    exact (evaluate_of_agree (empty 64)).2.2 _ _ (by decide) (by decide) _ built

end Context

end NamedExpr
