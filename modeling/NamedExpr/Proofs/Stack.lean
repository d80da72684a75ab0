import NamedExpr.Proofs.Failures
/-!
# The stack of names in resolution

`Evaluation.resolve` is told for each expression which names are in resolution. Here evaluation keeps them on one
stack instead: a name goes onto it before its expression is evaluated and is taken off afterwards, also when the
evaluation fails. The steps are the same (`Evaluation.step`), and so is what they come to; every evaluation leaves
the stack as it found it (`Stacked.resolve_keeps`). The memory also counts the evaluations that stand in one another
and notes each one that begins, so that what holds of the stack at any time can be stated (`Scope.IsTrail`).
-/

namespace NamedExpr

/-! ## Evaluation with a stack -/

/-- An evaluation that begins: the names then in resolution, the innermost first, and how many evaluations stand in
one another, this one included. -/
structure Visit where
  resolving : List String
  depth : Nat

/-- What evaluation keeps in memory: the names in resolution, the innermost first, how many evaluations stand in one
another, and the evaluations that have begun so far. -/
structure Memory where
  resolving : List String
  depth : Nat
  visits : List Visit

namespace Memory

/-- The memory before the first evaluation. -/
def start : Memory := ⟨[], 0, []⟩

def push (n : String) (memory : Memory) : Memory := { memory with resolving := n :: memory.resolving }

def pop (memory : Memory) : Memory := { memory with resolving := memory.resolving.tail }

/-- One more evaluation begins. -/
def descend (memory : Memory) : Memory :=
  { memory with
    depth := memory.depth + 1
    visits := memory.visits ++ [⟨memory.resolving, memory.depth + 1⟩] }

/-- The innermost evaluation ends. -/
def ascend (memory : Memory) : Memory := { memory with depth := memory.depth - 1 }

end Memory

/-- Computations with a memory, which outlives failures. -/
abbrev Stacked := ExceptT Failure (StateM Memory)

namespace Stacked

open Evaluation (Calls name_along step_along)

/-- What a computation comes to, and the memory after it. -/
def after {α : Type} (x : Stacked α) (memory : Memory) : Except Failure α × Memory := x.run.run memory

/-- A computation between two changes of the memory. The second is made also if the computation fails. -/
def between {α : Type} (first last : Memory → Memory) (x : Stacked α) : Stacked α := do
  modify first
  try x finally modify last

/-- The value of a name, which is on the stack while its expression is evaluated. -/
def name (scope : Scope) (go : Expr → Stacked Resolved) (n : String) : Stacked Resolved := do
  let memory ← get
  Evaluation.name scope (fun _ e => between (Memory.push n) Memory.pop (go e)) memory.resolving n

/-- Evaluates an expression in which at most `budget` evaluations stand in one another. -/
def resolve (scope : Scope) : Nat → Expr → Stacked Resolved
  | 0, _ => between Memory.descend Memory.ascend (Evaluation.fail .nestingExhausted)
  | budget + 1, e =>
    let go := resolve scope budget
    between Memory.descend Memory.ascend (Evaluation.step go scope (name scope go) e)

/-! ## What a computation does to the memory -/

section

variable {α β : Type} {allowed : Visit → Prop} {resolving : List String} {depth : Nat}

theorem after_bind (x : Stacked α) (f : α → Stacked β) (memory : Memory) :
    (x >>= f).after memory
      = match x.after memory with
        | (.ok a, memory) => (f a).after memory
        | (.error failure, memory) => (.error failure, memory) := by
  unfold after ExceptT.run StateT.run
  cases ended : x memory with
  | mk result memory' =>
    simp only [bind, ExceptT.bind, ExceptT.mk, StateT.bind, ended]
    cases result with
    | ok a => rfl
    | error failure => rfl

theorem after_between (first last : Memory → Memory) (x : Stacked α) (memory : Memory) :
    (between first last x).after memory = ((x.after (first memory)).1, last (x.after (first memory)).2) := by
  have begun : (between first last x).after memory
      = (tryFinally x (modify last : Stacked PUnit)).after (first memory) := rfl
  rw [begun]
  unfold after ExceptT.run StateT.run
  cases ended : x (first memory) with
  | mk result memory' =>
    simp only [tryFinally, tryFinally', Functor.map, ExceptT.map, ExceptT.mk, StateT.bind, bind, pure, ended]
    cases result with
    | ok a => rfl
    | error failure => rfl

theorem after_name (scope : Scope) (go : Expr → Stacked Resolved) (n : String) (memory : Memory) :
    (name scope go n).after memory
      = after (Evaluation.name scope (fun _ e => between (Memory.push n) Memory.pop (go e)) memory.resolving n)
          memory := rfl

/-- With the names `resolving` on the stack and at depth `depth`, the computation `x` comes to `result` and leaves the
stack and the depth as they are. It begins evaluations only as allowed. -/
def Keeps (allowed : Visit → Prop) (resolving : List String) (depth : Nat) (x : Stacked α)
    (result : Except Failure α) : Prop :=
  ∀ visits, ∃ seen, x.after ⟨resolving, depth, visits⟩ = (result, ⟨resolving, depth, visits ++ seen⟩)
    ∧ ∀ visit ∈ seen, allowed visit

namespace Keeps

theorem lift (x : Except Failure α) : Keeps allowed resolving depth (liftM x) x := by
  intro visits
  refine ⟨[], ?_, by simp⟩
  rw [List.append_nil]
  rfl

theorem bind {x : Stacked α} {o : Except Failure α} {f : α → Stacked β} {g : α → Except Failure β}
    (first : Keeps allowed resolving depth x o) (rest : ∀ a, Keeps allowed resolving depth (f a) (g a)) :
    Keeps allowed resolving depth (x >>= f) (o >>= g) := by
  intro visits
  obtain ⟨seen, ended, ofFirst⟩ := first visits
  rw [after_bind, ended]
  cases o with
  | error failure => exact ⟨seen, rfl, ofFirst⟩
  | ok a =>
    obtain ⟨seen', ended', ofRest⟩ := rest a (visits ++ seen)
    refine ⟨seen ++ seen', ?_, ?_⟩
    · rw [← List.append_assoc]
      exact ended'
    · intro visit member
      exact (List.mem_append.1 member).elim (ofFirst visit) (ofRest visit)

/-- A stack does not change what a step comes to. -/
def along (allowed : Visit → Prop) (resolving : List String) (depth : Nat) : Alongside Stacked (Except Failure) where
  rel := Keeps allowed resolving depth
  lift := lift
  pure := fun a => lift (.ok a)
  bind := bind

/-- A name that is pushed is popped again. -/
theorem push {n : String} {x : Stacked α} {o : Except Failure α} (h : Keeps allowed (n :: resolving) depth x o) :
    Keeps allowed resolving depth (between (Memory.push n) Memory.pop x) o := by
  intro visits
  obtain ⟨seen, ended, ofInner⟩ := h visits
  refine ⟨seen, ?_, ofInner⟩
  rw [after_between]
  simp only [Memory.push, ended, Memory.pop, List.tail_cons]

/-- An evaluation that has begun ends. -/
theorem descend {x : Stacked α} {o : Except Failure α} (begun : allowed ⟨resolving, depth + 1⟩)
    (h : Keeps allowed resolving (depth + 1) x o) :
    Keeps allowed resolving depth (between Memory.descend Memory.ascend x) o := by
  intro visits
  obtain ⟨seen, ended, ofInner⟩ := h (visits ++ [⟨resolving, depth + 1⟩])
  refine ⟨⟨resolving, depth + 1⟩ :: seen, ?_, List.forall_mem_cons.2 ⟨begun, ofInner⟩⟩
  rw [after_between]
  simp only [Memory.descend, ended, Memory.ascend, Nat.add_sub_cancel, List.append_assoc, List.singleton_append]

theorem name {scope : Scope} {go : Expr → Stacked Resolved} {go' : List String → Expr → Outcome}
    {segments : List String}
    (h : ∀ resolving' e', Calls scope resolving (.path segments) resolving' e' →
      Keeps allowed resolving' depth (go e') (go' resolving' e')) :
    Keeps allowed resolving depth (Stacked.name scope go (Expr.pathName segments))
      (Evaluation.name scope go' resolving (Expr.pathName segments)) := by
  intro visits
  rw [after_name]
  refine name_along (along allowed resolving depth) (fun resolving' e' calls => ?_) visits
  cases calls with
  | part member => cases member
  | name bound fresh shallow => exact push (h _ _ (.name bound fresh shallow))

end Keeps

end

/-- What may begin wherever `holds`, and holds of all that is evaluated where it holds, restricts the evaluations
that begin. Apart from noting them evaluation leaves the memory as it was, and comes to what it comes to without a
stack. -/
theorem resolve_keeps {scope : Scope} {allowed : Visit → Prop} {holds : List String → Nat → Expr → Prop}
    (begun : ∀ resolving depth e, holds resolving depth e → allowed ⟨resolving, depth + 1⟩)
    (calls : ∀ resolving depth e resolving' e', holds resolving depth e → Calls scope resolving e resolving' e' →
      holds resolving' (depth + 1) e')
    (budget : Nat) {resolving : List String} {depth : Nat} {e : Expr} (h : holds resolving depth e) :
    Keeps allowed resolving depth (resolve scope budget e) (Evaluation.resolve scope budget resolving e) := by
  induction budget generalizing resolving depth e with
  | zero => exact (Keeps.lift _).descend (begun _ _ _ h)
  | succ budget ih =>
    refine Keeps.descend (begun _ _ _ h) (step_along (Keeps.along allowed resolving (depth + 1)) ?_ ?_)
    · intro segments path
      subst path
      exact Keeps.name fun resolving' e' called => ih (calls _ _ _ _ _ h called)
    · intro p member
      exact ih (calls _ _ _ _ _ h (.part member))

/-- Whatever is on the stack, evaluation leaves it there, and comes to what it comes to without a stack. -/
theorem after_resolve (scope : Scope) (budget : Nat) (e : Expr) (memory : Memory) :
    ∃ seen, (resolve scope budget e).after memory
      = (Evaluation.resolve scope budget memory.resolving e, { memory with visits := memory.visits ++ seen }) := by
  have keeps : Keeps (fun _ => True) memory.resolving memory.depth (resolve scope budget e)
      (Evaluation.resolve scope budget memory.resolving e) :=
    resolve_keeps (fun _ _ _ (_ : True) => trivial) (fun _ _ _ _ _ _ _ => trivial) budget trivial
  obtain ⟨seen, ended, _⟩ := keeps memory.visits
  exact ⟨seen, ended⟩

end Stacked

/-! ## What stands on the stack -/

namespace Expr

mutual

/-- The names that stand in an expression as paths. -/
def pathNames : Expr → List String
  | .literal _ | .foreign _ => []
  | .path segments => [pathName segments]
  | .unary _ e | .reference e | .field e _ | .paren e => pathNames e
  | .binary _ a b | .index a b | .range a b _ => pathNames a ++ pathNames b
  | .methodCall e _ args => pathNames e ++ pathNamesAll args
  | .call _ args | .array args => pathNamesAll args

/-- The names that stand in a row of expressions as paths. -/
def pathNamesAll : List Expr → List String
  | [] => []
  | e :: rest => pathNames e ++ pathNamesAll rest

end

theorem pathNames_subset_pathNamesAll {e : Expr} {es : List Expr} (member : e ∈ es) :
    e.pathNames ⊆ pathNamesAll es := by
  induction es with
  | nil => cases member
  | cons first es ih =>
    rw [pathNamesAll]
    obtain rfl | later := List.mem_cons.1 member
    · exact List.subset_append_left _ _
    · exact List.Subset.trans (ih later) (List.subset_append_right _ _)

theorem pathNames_of_mem_operandsBefore {p e : Expr} {rest : List Expr} (member : p ∈ operandsBefore e rest) :
    p.pathNames ⊆ e.pathNames ∨ p ∈ rest := by
  fun_induction operandsBefore e rest with
  | case1 symbol left right rest ihRight ihLeft =>
    rw [pathNames]
    obtain inLeft | member := ihLeft member
    · exact .inl (List.Subset.trans inLeft (List.subset_append_left _ _))
    · apply (ihRight member).imp_left
      intro inRight
      exact List.Subset.trans inRight (List.subset_append_right _ _)
  | case2 e rest =>
    obtain rfl | later := List.mem_cons.1 member
    · exact .inl fun _ => id
    · exact .inr later

/-- The names in a part of an expression stand in the expression. -/
theorem pathNames_of_mem_parts {p e : Expr} (member : p ∈ e.parts) : p.pathNames ⊆ e.pathNames := by
  cases e with
  | literal | path | field | foreign => cases member
  | unary _ e | reference e | paren e =>
    rw [List.mem_singleton.1 member, pathNames]
    exact fun _ => id
  | binary symbol a b => exact (pathNames_of_mem_operandsBefore member).resolve_right (by simp)
  | methodCall e _ args =>
    rw [pathNames]
    obtain rfl | argument := List.mem_cons.1 member
    · exact List.subset_append_left _ _
    · exact List.Subset.trans (pathNames_subset_pathNamesAll argument) (List.subset_append_right _ _)
  | call _ args | array args =>
    rw [pathNames]
    exact pathNames_subset_pathNamesAll member
  | index a b | range a b _ =>
    rw [pathNames]
    obtain rfl | second := List.mem_cons.1 member
    · exact List.subset_append_left _ _
    · rw [List.mem_singleton.1 second]
      exact List.subset_append_right _ _

end Expr

namespace Scope

/-- The expression that is evaluated with these names in resolution: that of the innermost one, or the query. -/
def tree? (scope : Scope) (query : Expr) : List String → Option Expr
  | [] => some query
  | n :: _ => (scope.entries.get? n).join

/-- Names that can be in resolution at once while `query` is evaluated, the innermost first. -/
structure IsTrail (scope : Scope) (query : Expr) (resolving : List String) : Prop where
  nodup : resolving.Nodup
  bound : ∀ n ∈ resolving, ∃ e, scope.entries.get? n = some (some e)
  length_le : resolving.length ≤ min scope.maxDepth.toNat scope.entries.size
  met : ∀ n below, n :: below <:+ resolving → ∃ e, scope.tree? query below = some e ∧ n ∈ e.pathNames

/-- Where the evaluation of `query` stands when it evaluates `e` inside of `depth` other evaluations. -/
structure Stands (scope : Scope) (query : Expr) (resolving : List String) (depth : Nat) (e : Expr) : Prop where
  trail : scope.IsTrail query resolving
  room_le : resolving.length + Evaluation.room scope resolving ≤ scope.depthBound
  reach_le : depth + Evaluation.reach scope resolving e ≤ scope.nestingBound query
  within : ∃ tree, scope.tree? query resolving = some tree ∧ e.pathNames ⊆ tree.pathNames

namespace Stands

variable {scope : Scope} {query : Expr}

theorem start (scope : Scope) (query : Expr) : scope.Stands query [] 0 query where
  trail := ⟨List.nodup_nil, by simp, Nat.zero_le _, by simp⟩
  room_le := by
    rw [List.length_nil, Nat.zero_add]
    exact Evaluation.room_nil_le scope
  reach_le := by
    rw [Nat.zero_add]
    exact Evaluation.reach_le_nestingBound scope query
  within := ⟨query, rfl, fun _ => id⟩

theorem depth_lt {resolving : List String} {depth : Nat} {e : Expr} (h : scope.Stands query resolving depth e) :
    depth + 1 ≤ scope.nestingBound query := by
  have positive := e.height_pos
  have reach_le := h.reach_le
  unfold Evaluation.reach at reach_le
  omega

/-- Whatever is evaluated for an expression stands one deeper. -/
theorem calls {resolving resolving' : List String} {depth : Nat} {e e' : Expr}
    (h : scope.Stands query resolving depth e) (called : Evaluation.Calls scope resolving e resolving' e') :
    scope.Stands query resolving' (depth + 1) e' := by
  have reach_le : depth + 1 + Evaluation.reach scope resolving' e' ≤ scope.nestingBound query := by
    have less := called.reach_lt
    have reach_le := h.reach_le
    omega
  obtain ⟨tree, top, inTree⟩ := h.within
  cases called with
  | part member =>
    exact ⟨h.trail, h.room_le, reach_le, tree, top, List.Subset.trans (Expr.pathNames_of_mem_parts member) inTree⟩
  | name bound fresh shallow =>
    rename_i segments
    have room_le : (Expr.pathName segments :: resolving).length
        + Evaluation.room scope (Expr.pathName segments :: resolving) ≤ scope.depthBound := by
      have used := Evaluation.room_cons_lt bound fresh shallow
      have room_le := h.room_le
      rw [List.length_cons]
      omega
    refine ⟨⟨?_, ?_, ?_, ?_⟩, room_le, reach_le, e', ?_, fun _ => id⟩
    · exact List.nodup_cons.2 ⟨fresh, h.trail.nodup⟩
    · exact List.forall_mem_cons.2 ⟨⟨e', bound⟩, h.trail.bound⟩
    · exact Nat.le_trans (Nat.le_add_right _ _) room_le
    · intro n below suffix
      obtain same | deeper := List.suffix_cons_iff.1 suffix
      · obtain ⟨rfl, rfl⟩ := List.cons.inj same
        exact ⟨tree, top, inTree (by simp [Expr.pathNames])⟩
      · exact h.trail.met n below deeper
    · simp [tree?, bound]

end Stands

end Scope

/-- However evaluation ends, it leaves the stack as it found it. While a query is evaluated no name is on the stack
twice, each stands for an expression, and each is met in the expression of the one below it or, if there is none, in
the query. So neither the stack nor the evaluations in one another grow beyond a bound that the scope and the query
give, and with that budget or any larger one evaluation comes to a value or to a failure of its own. -/
theorem Stacked.resolve_balanced_bounded (scope : Scope) (query : Expr) :
    (∀ budget e memory, ∃ seen, (resolve scope budget e).after memory
        = (Evaluation.resolve scope budget memory.resolving e, { memory with visits := memory.visits ++ seen }))
      ∧ (∀ budget, ∀ visit ∈ ((resolve scope budget query).after .start).2.visits,
          scope.IsTrail query visit.resolving
            ∧ visit.depth ≤ (1 + min scope.maxDepth.toNat scope.entries.size) * max query.height scope.height)
      ∧ ∀ more, ∃ o memory, (resolve scope (scope.nestingBound query + more) query).after .start = (o, memory)
          ∧ o.map Resolved.value = scope.evaluate query ∧ o ≠ .error .nestingExhausted := by
  refine ⟨after_resolve scope, ?_, ?_⟩
  · intro budget visit member
    have keeps : Keeps (fun visit => scope.IsTrail query visit.resolving ∧ visit.depth ≤ scope.nestingBound query)
        [] 0 (resolve scope budget query) (Evaluation.resolve scope budget [] query) :=
      resolve_keeps (fun _ _ _ stands => ⟨stands.trail, stands.depth_lt⟩)
        (fun _ _ _ _ _ stands called => stands.calls called) budget (Scope.Stands.start scope query)
    obtain ⟨seen, ended, allowed⟩ := keeps []
    rw [Memory.start, ended] at member
    exact allowed visit member
  · intro more
    have enough : Evaluation.reach scope [] query ≤ scope.nestingBound query + more :=
      Nat.le_trans (Evaluation.reach_le_nestingBound scope query) (Nat.le_add_right _ _)
    obtain ⟨seen, ended⟩ := after_resolve scope (scope.nestingBound query + more) query .start
    rw [show Memory.start.resolving = [] from rfl, Evaluation.resolve_eq_outcome enough] at ended
    refine ⟨_, _, ended, ?_, Evaluation.outcome_ne_exhausted scope [] query⟩
    rw [Evaluation.evaluate_eq_outcome]

/-- A cycle of two names: the second is met on the stack. -/
example :
    (Stacked.resolve ⟨(Bindings.empty.insert "a" (some (.path ["b"]))).insert "b" (some (.path ["a"])), 64⟩ 9
        (.paren (.path ["a"]))).after .start
      = (.error (.cyclicReference ["a", "b", "a"]),
        ⟨[], 0, [⟨[], 1⟩, ⟨[], 2⟩, ⟨["a"], 3⟩, ⟨["b", "a"], 4⟩]⟩) := by
  rfl

end NamedExpr
