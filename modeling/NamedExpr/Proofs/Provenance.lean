import NamedExpr.Proofs.Arguments
import NamedExpr.Proofs.Operations
/-!
# Where options come from

A value is that of an option because of the form of the expression it comes from: `None`, a call, or a method that
gives an option, in brackets or behind a reference, or a name that stands for such an expression
(`Scope.MakesOption`). Neither what is computed in the expression nor how deep evaluation nests has a part in it
(`Scope.optional_iff_makesOption`).
-/

namespace NamedExpr

/-- If an outcome is a value, it is that of an option exactly if `p` holds. -/
abbrev Flagged (p : Prop) (outcome : Outcome) : Prop :=
  Meets (fun _ => True) (fun r => r.optional = true ↔ p) outcome

namespace Flagged

variable {α : Type} {p : Prop}

/-- A value without mark comes from no option. -/
theorem unmarked (x : Except Failure Value) (none : ¬p) : Flagged p (x.map fun v => ⟨v, false⟩) := by
  cases x with
  | error failure => trivial
  | ok v => simpa [Except.map, Meets] using none

theorem congr {q : Prop} (same : p ↔ q) {outcome : Outcome} (h : Flagged p outcome) : Flagged q outcome := by
  rwa [← propext same]

/-- Whatever comes first, only the last step counts. -/
theorem after {x : Except Failure α} {f : α → Outcome} (last : ∀ a, Flagged p (f a)) : Flagged p (x >>= f) := by
  cases x with
  | error failure => trivial
  | ok a => exact last a

end Flagged

/-! ## Methods -/

namespace Dispatch

/-- Whatever value a call comes to with the arguments it asks for, it is that of an option exactly if `p` holds. -/
def Flags (p : Prop) : Dispatch → Prop
  | .settled outcome => Flagged p outcome
  | .awaits _ resume => ∀ argument, (resume argument).Flags p

variable {p : Prop} {optional : Bool}

theorem settled_flags {outcome : Outcome} (h : Flagged p outcome) : (settled outcome).Flags p := h

theorem fail_flags (failure : Failure) : (fail failure).Flags p := trivial

theorem value_flags (v : Value) (marked : optional = true ↔ p) : (value v optional).Flags p := marked

theorem first_flags {resume : Option Resolved → Outcome} (h : ∀ argument, Flagged p (resume argument)) :
    (first resume).Flags p := h

theorem argument_flags (marked : optional = true ↔ p) : (argument optional).Flags p := first_flags fun _ => marked

theorem fromArgument_flags (f : Value → Except Failure Value) (none : ¬p) : (fromArgument f).Flags p :=
  first_flags fun _ => .unmarked _ none

theorem withArity_flags {name : String} {expected given : Nat} {d : Dispatch} (h : d.Flags p) :
    (withArity name expected given d).Flags p := by
  unfold withArity
  split
  · exact h
  · exact fail_flags _

theorem run_flagged {d : Dispatch} (flags : d.Flags p) (ask : Nat → Except Failure (Option Resolved)) :
    Flagged p (d.run ask) := by
  induction d with
  | settled outcome => exact flags
  | awaits place resume ih => exact Flagged.after fun argument => ih argument (flags argument)

end Dispatch

/-- The combinators that give an option, also where it has no content. -/
def Combinator.givesOption : Combinator → Bool
  | .and | .or | .xor => true
  | _ => false

theorem Combinator.exclusive_flagged (mine theirs : Option Value) {p : Prop} (option : p) :
    Flagged p (exclusive mine theirs) := by
  cases mine with
  | none => cases theirs <;> exact ⟨fun _ => option, fun _ => rfl⟩
  | some a =>
    cases theirs with
    | none => exact ⟨fun _ => option, fun _ => rfl⟩
    | some b => trivial

open Dispatch in
theorem Combinator.call_flags (c : Combinator) (receiver : Option Resolved) (given : Nat) :
    (c.call receiver given).Flags (c.givesOption = true) := by
  cases c with
  | and =>
    apply withArity_flags
    cases receiver with
    | none => exact fail_flags _
    | some r =>
      show (if r.value.isNone then value .none true else argument true).Flags _
      split
      · exact value_flags _ Iff.rfl
      · exact argument_flags Iff.rfl
  | or | unwrapOr =>
    apply withArity_flags
    split
    · exact value_flags _ Iff.rfl
    · exact argument_flags Iff.rfl
  | xor => exact withArity_flags (first_flags fun other => exclusive_flagged _ _ rfl)
  | unwrap =>
    apply withArity_flags
    split
    · exact value_flags _ Iff.rfl
    · exact fail_flags _
  | isNone | isSome | isOption => exact withArity_flags (value_flags _ Iff.rfl)

open Dispatch in
theorem NumericMethod.call_flags {p : Prop} (none : ¬p) (m : NumericMethod) (x : Number) (given : Nat) :
    (m.call x given).Flags p := by
  cases m with
  | rounding | abs | signum => exact withArity_flags (settled_flags (.unmarked _ none))
  | max | min | powi | binary => exact withArity_flags (fromArgument_flags _ none)
  | unary function => exact withArity_flags (settled_flags (.unmarked (.ok _) none))

namespace Method

/-- The methods that give an option, by name. -/
def optionNames : List String := ["and", "or", "xor"]

theorem mem_optionNames_iff {name : String} :
    name ∈ optionNames ↔ ∃ c : Combinator, ofName? name = some (.combinator c) ∧ c.givesOption = true := by
  constructor
  · have every : ∀ name ∈ optionNames,
        ∃ c ∈ Combinator.all, ofName? name = some (.combinator c) ∧ c.givesOption = true := by decide
    intro member
    obtain ⟨c, -, found⟩ := every name member
    exact ⟨c, found⟩
  · rintro ⟨c, found, option⟩
    rw [← name_of_ofName? found]
    cases c <;> first | (cases option; done) | decide

theorem callOn_flags {p : Prop} (none : ¬p) (m : Option Method) (name : String) (receiver : Value) (given : Nat) :
    (callOn m name receiver given).Flags p := by
  unfold callOn
  split
  · exact Dispatch.withArity_flags (Dispatch.settled_flags (.unmarked (.ok _) none))
  · exact Dispatch.withArity_flags (Dispatch.fromArgument_flags _ none)
  · split
    · exact NumericMethod.call_flags none _ _ given
    · exact Dispatch.fail_flags _
  · exact Dispatch.fail_flags _

/-- The name of a method decides whether what it gives is an option. -/
theorem dispatch_flags (name : String) (receiver : Option Resolved) (given : Nat) :
    (dispatch name receiver given).Flags (name ∈ optionNames) := by
  unfold dispatch
  split
  · rename_i c found
    have same : (name ∈ optionNames) = (c.givesOption = true) := by
      rw [mem_optionNames_iff, found]
      simp
    rw [same]
    exact c.call_flags receiver given
  · rename_i other
    split
    · exact Dispatch.fail_flags _
    · apply callOn_flags
      intro member
      obtain ⟨c, found, -⟩ := mem_optionNames_iff.1 member
      exact other c found

/-- `is_option` gives the mark of its receiver; a missing one counts as an option. -/
theorem callDeferred_isOption {receiver : Option Resolved} {args : List (Except Failure (Option Resolved))}
    {r : Resolved} (ok : callDeferred "is_option" receiver args = .ok r) :
    r = ⟨.bool (receiver.getD .absent).optional, false⟩ := by
  by_cases given : args.length = 0
  · have answered : dispatch "is_option" receiver args.length
        = .settled (.ok ⟨.bool (receiver.getD .absent).optional, false⟩) := by
      rw [given]
      rfl
    rw [callDeferred_of_settled answered] at ok
    cases ok
    rfl
  · have refused : dispatch "is_option" receiver args.length = Dispatch.fail (.arity "is_option" 0 args.length) :=
      Dispatch.withArity_of_ne given _
    rw [callDeferred_of_settled refused] at ok
    cases ok

end Method

/-! ## Expressions -/

namespace Scope

/-- The expressions whose values are those of options, by their form and that of the expressions that names stand
for. -/
inductive MakesOption (scope : Scope) : Expr → Prop where
  | none : MakesOption scope (.literal .none)
  | call (function : List String) (args : List Expr) : MakesOption scope (.call function args)
  | methodCall (receiver : Expr) {method : String} (args : List Expr) (option : method ∈ Method.optionNames) :
      MakesOption scope (.methodCall receiver method args)
  | paren {e : Expr} (inner : MakesOption scope e) : MakesOption scope (.paren e)
  | reference {e : Expr} (inner : MakesOption scope e) : MakesOption scope (.reference e)
  | path {segments : List String} {e : Expr} (bound : scope.entries.get? (Expr.pathName segments) = some (some e))
      (inner : MakesOption scope e) : MakesOption scope (.path segments)

variable {scope : Scope}

/-- What an expression is decides whether it makes an option, one level of it at a time. -/
theorem makesOption_iff {e : Expr} :
    scope.MakesOption e ↔
      match e with
      | .literal value => value = .none
      | .call _ _ => True
      | .methodCall _ method _ => method ∈ Method.optionNames
      | .paren inner | .reference inner => scope.MakesOption inner
      | .path segments =>
        ∃ inner, scope.entries.get? (Expr.pathName segments) = some (some inner) ∧ scope.MakesOption inner
      | _ => False := by
  constructor
  · intro makes
    cases makes with
    | none | call => trivial
    | methodCall _ _ option => exact option
    | paren inner | reference inner => exact inner
    | path bound inner => exact ⟨_, bound, inner⟩
  · intro form
    cases e with
    | literal value =>
      obtain rfl : value = .none := form
      exact .none
    | call function args => exact .call function args
    | methodCall receiver method args => exact .methodCall receiver args form
    | paren inner => exact .paren form
    | reference inner => exact .reference form
    | path segments =>
      obtain ⟨inner, bound, makes⟩ := form
      exact .path bound makes
    | _ => exact form.elim

end Scope

namespace Evaluation

open Scope (makesOption_iff)

variable {scope : Scope}

theorem literal_flagged (value : Literal) : Flagged (value = .none) (literal value) := by
  cases value with
  | none => exact ⟨fun _ => rfl, fun _ => rfl⟩
  | int n =>
    simp only [literal]
    split
    · exact .unmarked _ (by simp)
    · trivial
  | bool | float | str => exact .unmarked (.ok _) (by simp)
  | unknown => trivial

theorem methodCall_flagged (go : Expr → Outcome) (receiver : Expr) (method : String) (args : List Expr) :
    Flagged (method ∈ Method.optionNames) (methodCall go scope receiver method args) := by
  apply Flagged.after
  intro r
  exact Dispatch.run_flagged (Method.dispatch_flags method r args.length) _

theorem call_flagged (go : Expr → Outcome) (function : String) (args : List Expr) :
    Flagged True (call go function args) := by
  unfold call
  split
  · split
    · exact Flagged.after fun r => ⟨fun _ => trivial, fun _ => rfl⟩
    · trivial
  · trivial

/-- If whatever an expression hands on is marked as it should be, so is what it comes to. -/
theorem step_flagged {go : List String → Expr → Outcome} {resolving : List String} {e : Expr}
    (h : ∀ resolving' e', Calls scope resolving e resolving' e' → Flagged (scope.MakesOption e') (go resolving' e')) :
    Flagged (scope.MakesOption e) (step (go resolving) scope (name scope go resolving) e) := by
  apply Flagged.congr makesOption_iff.symm
  -- Brackets, references and bound names hand on a mark; every other form sets its own.
  cases e with
  | literal value => exact literal_flagged value
  | field | foreign => trivial
  | paren e | reference e => exact h _ _ (.part List.mem_cons_self)
  | path segments =>
    by_cases bound : ∃ e, scope.entries.get? (Expr.pathName segments) = some (some e)
    · obtain ⟨e, bound⟩ := bound
      simp only [bound, step, name_of_bound bound]
      split
      · trivial
      · split
        · trivial
        · rename_i fresh deep
          simpa using h _ _ (.name bound fresh (by omega))
    · simp only [step, name_of_unbound (not_exists.1 bound)]
      trivial
  | methodCall receiver method args => exact methodCall_flagged _ receiver method args
  | call function args => exact call_flagged _ _ args
  | unary symbol e => exact Flagged.after fun operand => Flagged.after fun op => .unmarked _ id
  | binary symbol a b => exact Flagged.after fun ops => Flagged.after fun operands => .unmarked _ id
  | array es => exact Flagged.after fun items => .unmarked (.ok _) id
  | range a b inclusive | index a b => exact Flagged.after fun first => Flagged.after fun last => .unmarked _ id

theorem resolve_flagged (scope : Scope) (budget : Nat) (resolving : List String) (e : Expr) :
    Flagged (scope.MakesOption e) (resolve scope budget resolving e) := by
  induction budget generalizing resolving e with
  | zero => trivial
  | succ budget ih => exact step_flagged fun resolving' e' _ => ih resolving' e'

/-! ## Asking for it -/

/-- `is_option` is answered from the mark of its receiver, and without looking at its value. A missing one counts as
an option. -/
theorem methodCall_isOption {go : Expr → Outcome} {receiver : Expr} {args : List Expr} {r : Resolved}
    (ok : methodCall go scope receiver "is_option" args = .ok r) :
    (scope.misses receiver = true ∧ r = ⟨.bool true, false⟩)
      ∨ scope.misses receiver = false ∧ ∃ inner, go receiver = .ok inner ∧ r = ⟨.bool inner.optional, false⟩ := by
  rw [methodCall_eq_callDeferred] at ok
  cases found : operand go scope (Method.toleratesReceiver "is_option") receiver with
  | error failure =>
    rw [found] at ok
    cases ok
  | ok operand? =>
    rw [found] at ok
    have answered := Method.callDeferred_isOption ok
    obtain ⟨-, missing, rfl⟩ | ⟨declared, inner, evaluated, rfl⟩ := operand_eq_ok found
    · exact .inl ⟨missing, answered⟩
    · exact .inr ⟨declared rfl, inner, evaluated, answered⟩

end Evaluation

namespace Scope

/-- The two scopes declare the same names, and a name stands for an expression that makes an option in both or in
neither. -/
structure SameOptions (scope scope' : Scope) : Prop where
  declared (n : String) : scope.entries.contains n = scope'.entries.contains n
  bound (n : String) : (∃ e, scope.entries.get? n = some (some e) ∧ scope.MakesOption e)
    ↔ ∃ e, scope'.entries.get? n = some (some e) ∧ scope'.MakesOption e

variable {scope scope' : Scope}

theorem SameOptions.misses (same : scope.SameOptions scope') (e : Expr) : scope.misses e = scope'.misses e := by
  cases e with
  | path segments => simp only [Scope.misses, same.declared]
  | _ => rfl

theorem MakesOption.of_same (same : scope.SameOptions scope') {e : Expr} (makes : scope.MakesOption e) :
    scope'.MakesOption e := by
  induction makes with
  | none => exact .none
  | call function args => exact .call function args
  | methodCall receiver args option => exact .methodCall receiver args option
  | paren _ ih => exact .paren ih
  | reference _ ih => exact .reference ih
  | path bound inner _ =>
    -- The other scope may bind another expression, of which the induction says nothing.
    obtain ⟨e, bound', inner'⟩ := (same.bound _).1 ⟨_, bound, inner⟩
    exact .path bound' inner'

theorem SameOptions.makesOption_iff (same : scope.SameOptions scope') (e : Expr) :
    scope.MakesOption e ↔ scope'.MakesOption e :=
  ⟨.of_same same, .of_same ⟨fun n => (same.declared n).symm, fun n => (same.bound n).symm⟩⟩

/-- Whether a value is that of an option is decided by the form of its expression, and of those that the names in it
stand for. That is what `is_option` tells, so it gives the same in two scopes with expressions of the same sort. -/
theorem optional_iff_makesOption (scope : Scope) :
    (∀ (budget : Nat) (resolving : List String) (e : Expr) (r : Resolved),
        Evaluation.resolve scope budget resolving e = .ok r → (r.optional = true ↔ scope.MakesOption e))
      ∧ (∀ (budget : Nat) (resolving : List String) (e : Expr) (args : List Expr) (r : Resolved),
        Evaluation.resolve scope budget resolving (.methodCall e "is_option" args) = .ok r →
        ∃ answer, r = ⟨.bool answer, false⟩ ∧ (answer = true ↔ scope.misses e = true ∨ scope.MakesOption e))
      ∧ ∀ scope' : Scope, scope.SameOptions scope' →
        ∀ (budget budget' : Nat) (resolving resolving' : List String) (e : Expr) (args args' : List Expr)
          (r r' : Resolved),
          Evaluation.resolve scope budget resolving (.methodCall e "is_option" args) = .ok r →
          Evaluation.resolve scope' budget' resolving' (.methodCall e "is_option" args') = .ok r' → r = r' := by
  have flagged (scope : Scope) (budget : Nat) (resolving : List String) (e : Expr) (r : Resolved)
      (ok : Evaluation.resolve scope budget resolving e = .ok r) : r.optional = true ↔ scope.MakesOption e := by
    have flagged := Evaluation.resolve_flagged scope budget resolving e
    rwa [ok] at flagged
  have asked (scope : Scope) (budget : Nat) (resolving : List String) (e : Expr) (args : List Expr) (r : Resolved)
      (ok : Evaluation.resolve scope budget resolving (.methodCall e "is_option" args) = .ok r) :
      ∃ answer, r = ⟨.bool answer, false⟩ ∧ (answer = true ↔ scope.misses e = true ∨ scope.MakesOption e) := by
    cases budget with
    | zero => cases ok
    | succ budget =>
      obtain ⟨missing, rfl⟩ | ⟨declared, inner, evaluated, rfl⟩ := Evaluation.methodCall_isOption ok
      · exact ⟨true, rfl, fun _ => .inl missing, fun _ => rfl⟩
      · refine ⟨inner.optional, rfl, ?_⟩
        simpa [declared] using flagged scope budget resolving e inner evaluated
  refine ⟨flagged scope, asked scope, ?_⟩
  intro scope' same budget budget' resolving resolving' e args args' r r' ok ok'
  obtain ⟨answer, rfl, told⟩ := asked scope budget resolving e args r ok
  obtain ⟨answer', rfl, told'⟩ := asked scope' budget' resolving' e args' r' ok'
  rw [← same.misses, ← same.makesOption_iff, ← told] at told'
  rw [Bool.eq_iff_iff.2 told']

/-- Whether the option that a name stands for has content makes no difference, and neither does the way to it. -/
theorem optional_iff_makesOption_chained :
    let scope : Scope := ⟨(Bindings.empty.insert "x" (some (.path ["y"]))).insert "y" (some (.literal .none)), 64⟩
    let scope' : Scope := ⟨(Bindings.empty.insert "x" (some (.paren (.path ["y"])))).insert "y"
      (some (.call ["Some"] [.literal (.int 3)])), 64⟩
    let question := Expr.methodCall (.path ["x"]) "is_option" []
    scope.SameOptions scope' ∧ scope.MakesOption (.path ["x"])
      ∧ Evaluation.resolve scope 9 [] question = .ok ⟨.bool true, false⟩
      ∧ Evaluation.resolve scope' 9 [] question = .ok ⟨.bool true, false⟩ := by
  intro scope scope' question
  have makes : ∀ n ∈ ["x", "y"], ∃ e, scope.entries.get? n = some (some e) ∧ scope.MakesOption e := by
    simp only [List.forall_mem_cons]
    exact ⟨⟨_, rfl, .path rfl .none⟩, ⟨_, rfl, .none⟩, by simp⟩
  have makes' : ∀ n ∈ ["x", "y"], ∃ e, scope'.entries.get? n = some (some e) ∧ scope'.MakesOption e := by
    simp only [List.forall_mem_cons]
    exact ⟨⟨_, rfl, .paren (.path rfl (.call _ _))⟩, ⟨_, rfl, .call _ _⟩, by simp⟩
  have same : scope.SameOptions scope' := by
    constructor
    · intro n
      simp only [scope, scope', Bindings.contains, Bindings.get?_insert, Bindings.get?_empty]
      by_cases y : n = "y"
      · simp [y]
      · by_cases x : n = "x" <;> simp [x, y]
    · intro n
      by_cases member : n ∈ ["x", "y"]
      · exact iff_of_true (makes n member) (makes' n member)
      · simp only [List.mem_cons, List.not_mem_nil, or_false, not_or] at member
        simp [scope, scope', member]
  obtain ⟨flagged, _, compared⟩ := optional_iff_makesOption scope
  have content : Evaluation.resolve scope 8 [] (.path ["x"]) = .ok ⟨.none, true⟩ := rfl
  have answered : Evaluation.resolve scope 9 [] question = .ok ⟨.bool true, false⟩ := rfl
  obtain ⟨r, ok⟩ : ∃ r, Evaluation.resolve scope' 9 [] question = .ok r := ⟨_, rfl⟩
  refine ⟨same, (flagged 8 [] _ _ content).1 rfl, answered, ?_⟩
  rw [ok, compared scope' same 9 9 [] [] (.path ["x"]) [] [] _ r answered ok]

end Scope

end NamedExpr
