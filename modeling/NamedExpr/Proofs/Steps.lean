import Mathlib.Data.List.Forall2
import NamedExpr.Evaluation
/-!
# One step of evaluation

Evaluating an expression evaluates some of its parts (`Expr.parts`), which are less high, or the expression that its
name stands for (`Evaluation.Calls`). What a step makes of them depends neither on where evaluation takes place nor on
anything but the form of the expression: two ways to evaluate that go alongside each other on the parts and on the
name do so on two expressions of one form (`step_alike`), and so on an expression and itself (`step_along`).
-/

namespace NamedExpr

namespace Expr

/-! ## The parts of an expression -/

/-- The expressions that may be evaluated in evaluating an expression, as long as no name is resolved: the operands
of a run of binary operators, but not the operators inside of the run. -/
def parts : Expr → List Expr
  | .literal _ | .path _ | .field .. | .foreign _ => []
  | .unary _ e | .reference e | .paren e => [e]
  | .binary symbol a b => (binary symbol a b).operands
  | .methodCall e _ args => e :: args
  | .call _ args | .array args => args
  | .index a b | .range a b _ => [a, b]

theorem height_pos (e : Expr) : 0 < e.height := by
  cases e <;> simp [height]

theorem height_le_heightAll {e : Expr} {es : List Expr} (member : e ∈ es) : e.height ≤ heightAll es := by
  induction es with
  | nil => cases member
  | cons first es ih =>
    rw [heightAll]
    obtain rfl | later := List.mem_cons.1 member
    · exact Nat.le_max_left _ _
    · exact Nat.le_trans (ih later) (Nat.le_max_right _ _)

/-- No operand of a run is higher than the run. -/
theorem height_of_mem_operandsBefore {p e : Expr} {rest : List Expr} (member : p ∈ operandsBefore e rest) :
    p.height ≤ e.height ∨ p ∈ rest := by
  fun_induction operandsBefore e rest with
  | case1 symbol left right rest ihRight ihLeft =>
    rw [height]
    obtain low | member := ihLeft member
    · exact .inl (by omega)
    · obtain low | member := ihRight member
      · exact .inl (by omega)
      · exact .inr member
  | case2 e rest =>
    obtain rfl | later := List.mem_cons.1 member
    · exact .inl (Nat.le_refl _)
    · exact .inr later

/-- The parts of an expression are less high. -/
theorem height_of_mem_parts {p e : Expr} (member : p ∈ e.parts) : p.height < e.height := by
  cases e with
  | literal | path | field | foreign => cases member
  | unary _ e | reference e | paren e =>
    rw [List.mem_singleton.1 member, height]
    omega
  | binary symbol a b =>
    have either : p ∈ a.operands ∨ p ∈ b.operands := by simpa [parts] using member
    rw [height]
    obtain left | right := either
    · have := (height_of_mem_operandsBefore left).resolve_right (by simp)
      omega
    · have := (height_of_mem_operandsBefore right).resolve_right (by simp)
      omega
  | methodCall e _ args =>
    rw [height]
    obtain rfl | argument := List.mem_cons.1 member
    · omega
    · have := height_le_heightAll argument
      omega
  | call _ args | array args =>
    have : p.height ≤ heightAll args := height_le_heightAll member
    rw [height]
    omega
  | index a b | range a b _ =>
    rw [height]
    obtain rfl | second := List.mem_cons.1 member
    · omega
    · rw [List.mem_singleton.1 second]
      omega

/-- What holds of an expression whenever it holds of its parts, holds of every expression. -/
theorem parts_induction {motive : Expr → Prop} (step : ∀ e, (∀ p ∈ e.parts, motive p) → motive e) (e : Expr) :
    motive e := by
  have bounded (bound : Nat) : ∀ e : Expr, e.height < bound → motive e := by
    induction bound with
    | zero => exact fun _ impossible => absurd impossible (Nat.not_lt_zero _)
    | succ bound ih =>
      intro e low
      apply step
      intro p member
      exact ih p (Nat.lt_of_lt_of_le (height_of_mem_parts member) (Nat.le_of_lt_succ low))
  exact bounded _ e (Nat.lt_succ_self _)

/-! ## Expressions of one form -/

/-- Two expressions of one form: they differ at most in their parts, and those that take the same place are related.
The operators inside of a run are no parts of it, so runs need to have the same symbols, but not the same shape. -/
inductive Alike (related : Expr → Expr → Prop) : Expr → Expr → Prop where
  | literal (value : Literal) : Alike related (.literal value) (.literal value)
  | path (segments : List String) : Alike related (.path segments) (.path segments)
  | field (e e' : Expr) (name : String) : Alike related (.field e name) (.field e' name)
  | foreign (shown : String) : Alike related (.foreign shown) (.foreign shown)
  | unary (symbol : String) {e e' : Expr} (h : related e e') : Alike related (.unary symbol e) (.unary symbol e')
  | reference {e e' : Expr} (h : related e e') : Alike related (.reference e) (.reference e')
  | paren {e e' : Expr} (h : related e e') : Alike related (.paren e) (.paren e')
  | binary {symbol symbol' : String} {a b a' b' : Expr}
      (symbols : (binary symbol a b).symbols = (binary symbol' a' b').symbols)
      (operands : List.Forall₂ related (binary symbol a b).operands (binary symbol' a' b').operands) :
      Alike related (.binary symbol a b) (.binary symbol' a' b')
  | methodCall {e e' : Expr} (method : String) {args args' : List Expr} (receiver : related e e')
      (arguments : List.Forall₂ related args args') :
      Alike related (.methodCall e method args) (.methodCall e' method args')
  | call (function : List String) {args args' : List Expr} (arguments : List.Forall₂ related args args') :
      Alike related (.call function args) (.call function args')
  | array {es es' : List Expr} (elements : List.Forall₂ related es es') : Alike related (.array es) (.array es')
  | index {a a' b b' : Expr} (target : related a a') (place : related b b') :
      Alike related (.index a b) (.index a' b')
  | range {a a' b b' : Expr} (inclusive : Bool) (start : related a a') (stop : related b b') :
      Alike related (.range a b inclusive) (.range a' b' inclusive)

/-- An expression has its own form. -/
theorem Alike.refl {related : Expr → Expr → Prop} {e : Expr} (h : ∀ p ∈ e.parts, related p p) :
    Alike related e e := by
  cases e with
  | literal value => exact .literal value
  | path segments => exact .path segments
  | field e name => exact .field e e name
  | foreign shown => exact .foreign shown
  | unary symbol e => exact .unary symbol (h e List.mem_cons_self)
  | reference e => exact .reference (h e List.mem_cons_self)
  | paren e => exact .paren (h e List.mem_cons_self)
  | binary symbol a b => exact .binary rfl (List.forall₂_same.2 h)
  | methodCall e method args =>
    obtain ⟨receiver, arguments⟩ := List.forall_mem_cons.1 h
    exact .methodCall method receiver (List.forall₂_same.2 arguments)
  | call function args => exact .call function (List.forall₂_same.2 h)
  | array es => exact .array (List.forall₂_same.2 h)
  | index a b => exact .index (h a List.mem_cons_self) (h b (by simp [parts]))
  | range a b inclusive => exact .range inclusive (h a List.mem_cons_self) (h b (by simp [parts]))

/-- Parts that are changed one by one. -/
theorem forall₂_map_parts {f : Expr → Expr} {e : Expr} {es : List Expr} (parts : es ⊆ e.parts) :
    List.Forall₂ (fun p p' => p ∈ e.parts ∧ p' = f p) es (es.map f) := by
  rw [List.forall₂_map_right_iff, List.forall₂_same]
  intro p member
  exact ⟨parts member, rfl⟩

/-- Of two expressions of one form, each has the form of the other. -/
theorem Alike.flip {related : Expr → Expr → Prop} {e e' : Expr} (alike : e.Alike related e') :
    e'.Alike (fun p p' => related p' p) e := by
  cases alike with
  | literal value => exact .literal value
  | path segments => exact .path segments
  | field e e' name => exact .field e' e name
  | foreign shown => exact .foreign shown
  | unary symbol h => exact .unary symbol h
  | reference h => exact .reference h
  | paren h => exact .paren h
  | binary symbols operands => exact .binary symbols.symm operands.flip
  | methodCall method receiver arguments => exact .methodCall method receiver arguments.flip
  | call function arguments => exact .call function arguments.flip
  | array elements => exact .array elements.flip
  | index target place => exact .index target place
  | range inclusive start stop => exact .range inclusive start stop

end Expr

/-- Whether an expression is a name that is not declared, the only operand that can be missing. -/
def Scope.misses (scope : Scope) : Expr → Bool
  | .path segments => !scope.entries.contains (Expr.pathName segments)
  | _ => false

theorem Scope.misses_congr {scope scope' : Scope} (same : scope.entries = scope'.entries) (e : Expr) :
    scope.misses e = scope'.misses e := by
  cases e <;> simp [misses, same]

namespace Evaluation

/-- Evaluating `e` while the names in `resolving` are being resolved may evaluate `e'` with the names in `resolving'`:
a part of `e`, or the expression that the name `e` stands for. -/
inductive Calls (scope : Scope) (resolving : List String) : Expr → List String → Expr → Prop where
  | part {e p : Expr} (member : p ∈ e.parts) : Calls scope resolving e resolving p
  | name {segments : List String} {e : Expr} (bound : scope.entries.get? (Expr.pathName segments) = some (some e))
      (fresh : Expr.pathName segments ∉ resolving) (shallow : (resolving.length : Int) < scope.maxDepth) :
      Calls scope resolving (.path segments) (Expr.pathName segments :: resolving) e

end Evaluation

/-! ## Two ways to evaluate -/

/-- A relation between the computations in two places where evaluation can take place, which holds of a sequence of
steps if it holds of each. -/
structure Alongside (m n : Type → Type) [Monad m] [MonadLiftT (Except Failure) m] [Monad n]
    [MonadLiftT (Except Failure) n] where
  rel : {α : Type} → m α → n α → Prop
  lift : ∀ {α : Type} (x : Except Failure α), rel (liftM x : m α) (liftM x : n α)
  pure : ∀ {α : Type} (a : α), rel (pure a : m α) (pure a : n α)
  bind : ∀ {α β : Type} {x : m α} {y : n α} {f : α → m β} {g : α → n β},
    rel x y → (∀ a, rel (f a) (g a)) → rel (x >>= f) (y >>= g)

namespace Evaluation

/-- An operand is missing where that is tolerated, and evaluated otherwise. -/
theorem operand_eq {m : Type → Type} [Monad m] (go : Expr → m Resolved) (scope : Scope) (tolerated : Bool) (e : Expr) :
    operand go scope tolerated e = if tolerated && scope.misses e then pure none else present go e := by
  cases tolerated with
  | false => rfl
  | true =>
    cases e with
    | path segments =>
      simp only [operand, tolerant, Scope.misses, Bool.true_and]
      cases scope.entries.contains (Expr.pathName segments) <;> rfl
    | _ => rfl

section

variable {m : Type → Type} [MonadLiftT (Except Failure) m] {scope : Scope} {go : List String → Expr → m Resolved}
  {resolving : List String} {n : String}

theorem name_of_bound {e : Expr} (bound : scope.entries.get? n = some (some e)) :
    name scope go resolving n
      = if n ∈ resolving then fail (.cyclicReference (cycle n resolving))
        else if scope.maxDepth ≤ resolving.length then fail (.depthExceeded scope.maxDepth)
        else go (n :: resolving) e := by
  rw [name, bound]

theorem name_of_unbound (unbound : ∀ e, scope.entries.get? n ≠ some (some e)) :
    name scope go resolving n = fail (.unresolvedName n) := by
  unfold name
  split
  · rename_i e bound
    exact absurd bound (unbound e)
  · rfl

end

variable {m n : Type → Type} [Monad m] [MonadLiftT (Except Failure) m] [Monad n] [MonadLiftT (Except Failure) n]
variable (along : Alongside m n) {scope scope' : Scope} {go : Expr → m Resolved} {go' : Expr → n Resolved}

theorem values_along {es es' : List Expr} (h : List.Forall₂ (fun e e' => along.rel (go e) (go' e')) es es') :
    along.rel (values go es) (values go' es') := by
  induction h with
  | nil => exact along.pure _
  | cons first _ ih => exact along.bind first fun r => along.bind ih fun vs => along.pure _

theorem elements_along {es es' : List Expr} (h : List.Forall₂ (fun e e' => along.rel (go e) (go' e')) es es') :
    along.rel (elements go es) (elements go' es') := by
  induction h with
  | nil => exact along.pure _
  | cons first _ ih =>
    apply along.bind first
    intro r
    split
    · exact along.lift _
    · exact along.bind ih fun vs => along.pure _

theorem operand_along {tolerated : Bool} {e e' : Expr} (h : along.rel (go e) (go' e'))
    (missing : scope.misses e = scope'.misses e') :
    along.rel (operand go scope tolerated e) (operand go' scope' tolerated e') := by
  rw [operand_eq, operand_eq, ← missing]
  split
  · exact along.pure _
  · exact along.bind h fun r => along.pure _

theorem run_along {ask : Nat → m (Option Resolved)} {ask' : Nat → n (Option Resolved)}
    (asked : ∀ place, along.rel (ask place) (ask' place)) (d : Dispatch) : along.rel (d.run ask) (d.run ask') := by
  induction d with
  | settled outcome => exact along.lift outcome
  | awaits place resume ih => exact along.bind (asked place) ih

theorem methodCall_along {receiver receiver' : Expr} {method : String} {args args' : List Expr}
    (ofReceiver : along.rel (go receiver) (go' receiver') ∧ scope.misses receiver = scope'.misses receiver')
    (ofArgs : List.Forall₂ (fun e e' => along.rel (go e) (go' e') ∧ scope.misses e = scope'.misses e') args args') :
    along.rel (methodCall go scope receiver method args) (methodCall go' scope' receiver' method args') := by
  apply along.bind (operand_along along ofReceiver.1 ofReceiver.2)
  intro r
  rw [ofArgs.length_eq]
  refine run_along along (fun place => ?_) _
  induction ofArgs generalizing place with
  | nil => exact along.pure _
  | cons first _ ih =>
    cases place with
    | zero => exact operand_along along first.1 first.2
    | succ place => exact ih place

theorem call_along {function : String} {args args' : List Expr}
    (h : List.Forall₂ (fun e e' => along.rel (go e) (go' e')) args args') :
    along.rel (call go function args) (call go' function args') := by
  cases h with
  | nil => exact along.lift _
  | cons first others =>
    cases others with
    | cons _ _ => exact along.lift _
    | nil =>
      simp only [call]
      by_cases some : function = "Some"
      · rw [if_pos some, if_pos some]
        exact along.bind first fun r => along.pure _
      · rw [if_neg some, if_neg some]
        exact along.lift _

/-- Two ways to evaluate that go alongside each other on the expressions that names stand for, do so on the names. -/
theorem name_along {go : List String → Expr → m Resolved} {go' : List String → Expr → n Resolved}
    {resolving : List String} {segments : List String}
    (h : ∀ resolving' e', Calls scope resolving (.path segments) resolving' e' →
      along.rel (go resolving' e') (go' resolving' e')) :
    along.rel (name scope go resolving (Expr.pathName segments))
      (name scope go' resolving (Expr.pathName segments)) := by
  unfold name
  split
  · rename_i e bound
    split
    · exact along.lift _
    · rename_i fresh
      split
      · exact along.lift _
      · exact h _ _ (.name bound fresh (by omega))
  · exact along.lift _

/-- Two ways to evaluate that go alongside each other on related parts, and miss the same of them, go alongside each
other on two expressions of one form, if they do so on the name that both may be. -/
theorem step_alike {related : Expr → Expr → Prop} {enter : String → m Resolved} {enter' : String → n Resolved}
    {e e' : Expr} (alike : e.Alike related e')
    (ofName : ∀ segments, e = .path segments →
      along.rel (enter (Expr.pathName segments)) (enter' (Expr.pathName segments)))
    (ofParts : ∀ p p', related p p' → along.rel (go p) (go' p') ∧ scope.misses p = scope'.misses p') :
    along.rel (step go scope enter e) (step go' scope' enter' e') := by
  have evaluated : ∀ p p', related p p' → along.rel (go p) (go' p') := fun p p' h => (ofParts p p' h).1
  cases alike with
  | literal | field | foreign => exact along.lift _
  | path segments => exact ofName segments rfl
  | paren h | reference h => exact evaluated _ _ h
  | unary symbol h => exact along.bind (evaluated _ _ h) fun r => along.lift _
  | binary symbols operands =>
    simp only [step, ← symbols]
    apply along.bind (along.lift _)
    intro ops
    exact along.bind (values_along along (operands.imp evaluated)) fun vs => along.lift _
  | methodCall method receiver arguments =>
    exact methodCall_along along (ofParts _ _ receiver) (arguments.imp ofParts)
  | call function arguments => exact call_along along (arguments.imp evaluated)
  | array elements => exact along.bind (elements_along along (elements.imp evaluated)) fun vs => along.pure _
  | range inclusive start stop =>
    apply along.bind (evaluated _ _ start)
    intro r
    exact along.bind (evaluated _ _ stop) fun s => along.lift _
  | index target place =>
    apply along.bind (evaluated _ _ target)
    intro r
    exact along.bind (evaluated _ _ place) fun s => along.lift _

/-- Two ways to evaluate that go alongside each other on the parts of an expression, and on the name if it is one,
do so on the expression. -/
theorem step_along {enter : String → m Resolved} {enter' : String → n Resolved} {e : Expr}
    (ofName : ∀ segments, e = .path segments →
      along.rel (enter (Expr.pathName segments)) (enter' (Expr.pathName segments)))
    (ofParts : ∀ p ∈ e.parts, along.rel (go p) (go' p)) :
    along.rel (step go scope enter e) (step go' scope enter' e) := by
  have alike : e.Alike (fun p p' => p = p' ∧ p ∈ e.parts) e := .refl fun p member => ⟨rfl, member⟩
  apply step_alike along alike ofName
  rintro p _ ⟨rfl, member⟩
  exact ⟨ofParts p member, rfl⟩

end Evaluation

end NamedExpr
