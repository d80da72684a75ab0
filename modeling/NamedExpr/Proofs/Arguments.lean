import NamedExpr.Proofs.Nesting
/-!
# Which arguments a call evaluates

The arguments of a method are handed over unevaluated, and the call may ask for any of them, also more than once. Here a
call is made of deferred arguments in any place where evaluation can take place (`Method.callDeferred`), and is the same
as the call that evaluation makes (`Evaluation.methodCall_eq_callDeferred`). No method asks for more than the first, or
for that again (`Method.asksOnce_dispatch`). So in a place where every evaluation of an argument is noted, none is
evaluated but the first, once, and that one only if it is the only one and its value is needed (`Method.Needs`). What is
not evaluated may be anything.
-/

namespace NamedExpr

/-! ## Calls with deferred arguments -/

namespace Method

section

variable {m : Type → Type} [Monad m] [MonadLiftT (Except Failure) m]

/-- Calls a method with deferred arguments. -/
def callDeferred (name : String) (receiver : Option Resolved) (args : List (m (Option Resolved))) : m Resolved :=
  (dispatch name receiver args.length).run fun place => args[place]?.getD (pure none)

variable {name : String} {receiver : Option Resolved} {args : List (m (Option Resolved))}

theorem callDeferred_of_settled {outcome : Outcome} (h : dispatch name receiver args.length = .settled outcome) :
    callDeferred name receiver args = liftM outcome := by
  rw [callDeferred, h]
  rfl

theorem callDeferred_of_first {resume : Option Resolved → Outcome} {argument : m (Option Resolved)}
    (h : dispatch name receiver (argument :: args).length = .first resume) :
    callDeferred name receiver (argument :: args) = argument >>= fun value => liftM (resume value) := by
  rw [callDeferred, h]
  rfl

end

end Method

/-- A call of a method evaluates the receiver, and leaves the arguments to the method. -/
theorem Evaluation.methodCall_eq_callDeferred {m : Type → Type} [Monad m] [MonadLiftT (Except Failure) m]
    (go : Expr → m Resolved) (scope : Scope) (receiver : Expr) (method : String) (args : List Expr) :
    methodCall go scope receiver method args
      = operand go scope (Method.toleratesReceiver method) receiver >>= fun r =>
          Method.callDeferred method r (args.map (operand go scope (Method.toleratesArgument method))) := by
  unfold methodCall
  congr 1
  funext r
  rw [Method.callDeferred, List.length_map]
  congr 1
  funext place
  rw [List.getElem?_map]
  cases args[place]? <;> rfl

/-- Computations that note the places of the arguments they evaluate, also if they fail later. -/
abbrev Noting := ExceptT Failure (StateM (List Nat))

namespace Method

/-- An argument that notes its place when it is evaluated. -/
def note (place : Nat) (x : Except Failure (Option Resolved)) : Noting (Option Resolved) := do
  modify fun places => places ++ [place]
  liftM x

/-- Calls a method with arguments that would come to the given results. Also gives the places of those that were
evaluated, in the order of their evaluation. -/
def callNoting (name : String) (receiver : Option Resolved) (args : List (Except Failure (Option Resolved))) :
    Outcome × List Nat :=
  (callDeferred name receiver (args.mapIdx note)).run.run []

variable {name : String} {receiver : Option Resolved} {args : List (Except Failure (Option Resolved))}

theorem callNoting_of_settled {outcome : Outcome} (h : dispatch name receiver args.length = .settled outcome) :
    callNoting name receiver args = (outcome, []) := by
  rw [← args.length_mapIdx (f := note)] at h
  rw [callNoting, callDeferred_of_settled h]
  rfl

theorem callNoting_of_first {resume : Option Resolved → Outcome} {argument : Except Failure (Option Resolved)}
    (h : dispatch name receiver (argument :: args).length = .first resume) :
    callNoting name receiver (argument :: args) = (argument >>= resume, [0]) := by
  rw [← (argument :: args).length_mapIdx (f := note), List.mapIdx_cons] at h
  rw [callNoting, List.mapIdx_cons, callDeferred_of_first h]
  cases argument <;> rfl

end Method

/-! ## What a call asks for -/

/-- A call that asks for no argument, or once for the first. -/
inductive Dispatch.AsksOnce : Dispatch → Prop where
  | settled (outcome : Outcome) : AsksOnce (.settled outcome)
  | first (resume : Option Resolved → Outcome) : AsksOnce (.first resume)

theorem Dispatch.AsksOnce.withArity {d : Dispatch} (asks : d.AsksOnce) (name : String) (expected given : Nat) :
    (withArity name expected given d).AsksOnce := by
  unfold Dispatch.withArity
  split
  · exact asks
  · exact .settled _

theorem Combinator.asksOnce_call (c : Combinator) (receiver : Option Resolved) (given : Nat) :
    (c.call receiver given).AsksOnce := by
  cases c with
  | and =>
    refine .withArity ?_ ..
    cases receiver with
    | none => exact .settled _
    | some r =>
      show (if r.value.isNone then Dispatch.value .none true else Dispatch.argument true).AsksOnce
      split
      · exact .settled _
      · exact .first _
  | or | unwrapOr =>
    refine .withArity ?_ ..
    split
    · exact .settled _
    · exact .first _
  | xor => exact .withArity (.first _) ..
  | unwrap =>
    refine .withArity ?_ ..
    split
    · exact .settled _
    · exact .settled _
  | isNone | isSome | isOption => exact .withArity (.settled _) ..

theorem NumericMethod.asksOnce_call (m : NumericMethod) (x : Number) (given : Nat) : (m.call x given).AsksOnce := by
  cases m with
  | rounding | abs | signum | unary => exact .withArity (.settled _) ..
  | max | min | powi | binary => exact .withArity (.first _) ..

namespace Method

theorem asksOnce_callOn (m : Option Method) (name : String) (receiver : Value) (given : Nat) :
    (callOn m name receiver given).AsksOnce := by
  unfold callOn
  split
  · exact .withArity (.settled _) ..
  · exact .withArity (.first _) ..
  · split
    · exact NumericMethod.asksOnce_call _ _ given
    · exact .settled _
  · exact .settled _

/-- No method asks for more than its first argument, or for that more than once. -/
theorem asksOnce_dispatch (name : String) (receiver : Option Resolved) (given : Nat) :
    (dispatch name receiver given).AsksOnce := by
  unfold dispatch
  split
  · exact Combinator.asksOnce_call _ receiver given
  · split
    · exact .settled _
    · exact asksOnce_callOn _ name _ given

theorem dispatch_cases (name : String) (receiver : Option Resolved) (given : Nat) :
    (∃ outcome, dispatch name receiver given = .settled outcome)
      ∨ ∃ resume, dispatch name receiver given = .first resume := by
  have asks := asksOnce_dispatch name receiver given
  generalize dispatch name receiver given = d at asks
  cases asks with
  | settled outcome => exact .inl ⟨outcome, rfl⟩
  | first resume => exact .inr ⟨resume, rfl⟩

/-- One who has a value for the first argument can carry any call out. -/
theorem dispatch_eq_call (name : String) (receiver : Option Resolved) (given : Nat) :
    dispatch name receiver given = (call name receiver given).toDispatch := by
  rw [call]
  obtain ⟨outcome, dispatched⟩ | ⟨resume, dispatched⟩ := dispatch_cases name receiver given
  · rw [dispatched]
    rfl
  · rw [dispatched]
    rfl

end Method

/-! ## When an argument is needed -/

namespace Dispatch

/-- Whether a call awaits an argument. -/
def isAwaiting : Dispatch → Bool
  | .settled _ => false
  | .awaits .. => true

@[simp]
theorem isAwaiting_settled (outcome : Outcome) : (settled outcome).isAwaiting = false := rfl

@[simp]
theorem isAwaiting_first (resume : Option Resolved → Outcome) : (first resume).isAwaiting = true := rfl

@[simp]
theorem isAwaiting_fail (failure : Failure) : (fail failure).isAwaiting = false := rfl

@[simp]
theorem isAwaiting_value (v : Value) (optional : Bool) : (value v optional).isAwaiting = false := rfl

@[simp]
theorem isAwaiting_argument (optional : Bool) : (argument optional).isAwaiting = true := rfl

@[simp]
theorem isAwaiting_fromArgument (f : Value → Except Failure Value) : (fromArgument f).isAwaiting = true := rfl

@[simp]
theorem isAwaiting_withArity (name : String) (expected given : Nat) (d : Dispatch) :
    (withArity name expected given d).isAwaiting = (decide (given = expected) && d.isAwaiting) := by
  unfold withArity
  split <;> simp [*]

end Dispatch

/-- The number of arguments that a combinator takes. -/
def Combinator.arity : Combinator → Nat
  | .and | .or | .xor | .unwrapOr => 1
  | .unwrap | .isNone | .isSome | .isOption => 0

/-- The number of arguments that a method of numbers takes. -/
def NumericMethod.arity : NumericMethod → Nat
  | .max | .min | .powi | .binary _ => 1
  | .rounding _ | .abs | .signum | .unary _ => 0

namespace Method

/-- The number of arguments that a method takes. -/
def arity : Method → Nat
  | .combinator c => c.arity
  | .isVariant _ => 0
  | .isSame => 1
  | .numeric m => m.arity

/-- The methods of numbers that take another number, by name. -/
def numericOfTwo : List String := ["max", "min", "powi", "atan2", "hypot", "powf", "log"]

/-- The method of a name needs the value of an argument, beside that of its receiver. -/
def Needs (name : String) (receiver : Option Resolved) : Prop :=
  (name = "or" ∨ name = "unwrap_or") ∧ (∀ r ∈ receiver, r.value.isNone = true)
    ∨ name = "and" ∧ (∃ r ∈ receiver, r.value.isNone = false)
    ∨ name = "xor"
    ∨ name = "is_same"
    ∨ name ∈ numericOfTwo ∧ ∃ r ∈ receiver, r.value.variant.isNumber = true

end Method

open Method (Needs numericOfTwo)

/-- A combinator awaits an argument exactly if it needs one and is given one. -/
theorem Combinator.isAwaiting_call_iff (c : Combinator) (receiver : Option Resolved) (given : Nat) :
    (c.call receiver given).isAwaiting = true ↔ given = 1 ∧ Needs c.name receiver := by
  cases c with
  | and =>
    cases receiver with
    | none => simp [call, name, Needs, numericOfTwo]
    | some r => cases content : r.value.isNone <;> simp [call, name, Needs, numericOfTwo, content]
  | or | unwrapOr =>
    cases receiver with
    | none => simp [call, name, Needs, Resolved.content?]
    | some r => cases content : r.value.isNone <;> simp [call, name, Needs, numericOfTwo, Resolved.content?, content]
  | xor => simp [call, name, Needs]
  | unwrap => cases content : Resolved.content? receiver <;> simp [call, name, Needs, numericOfTwo, content]
  | isNone | isSome | isOption => simp [call, name, Needs, numericOfTwo]

/-- A method of a number awaits an argument exactly if it is one of two numbers and is given one. -/
theorem NumericMethod.isAwaiting_call_iff (m : NumericMethod) (x : Number) (given : Nat) :
    (m.call x given).isAwaiting = true ↔ given = 1 ∧ m.name ∈ numericOfTwo := by
  cases m with
  | rounding direction => cases direction <;> simp [call, name, numericOfTwo, Rounding.name]
  | abs | signum => simp [call, name, numericOfTwo]
  | max | min | powi => simp [call, name, numericOfTwo]
  | unary function => cases function <;> simp [call, name, numericOfTwo, UnaryFunction.name]
  | binary function => cases function <;> simp [call, name, numericOfTwo, BinaryFunction.name]

namespace Method

/-- A method that is found by a name has that name. -/
theorem name_of_ofName? {name : String} {m : Method} (found : ofName? name = some m) : m.name = name := by
  simpa using List.find?_some found

/-- Only methods need arguments. -/
theorem Needs.isSome_ofName? {name : String} {receiver : Option Resolved} (needs : Needs name receiver) :
    (ofName? name).isSome = true := by
  have every : ∀ name ∈ ["or", "unwrap_or", "and", "xor", "is_same"] ++ numericOfTwo, (ofName? name).isSome = true := by
    decide
  apply every
  obtain ⟨rfl | rfl, _⟩ | ⟨rfl, _⟩ | rfl | rfl | ⟨listed, _⟩ := needs
  · decide
  · decide
  · decide
  · decide
  · decide
  · exact List.mem_append_right _ listed

theorem isNumber_variant (v : Value) : v.variant.isNumber = v.toNumber?.isSome := by
  cases v <;> rfl

/-- A method that is no combinator awaits an argument exactly if it needs one and is given one. -/
theorem isAwaiting_callOn_iff {m : Method} (other : ∀ c, m ≠ .combinator c) (r : Resolved) (given : Nat) :
    (callOn (some m) m.name r.value given).isAwaiting = true ↔ given = 1 ∧ Needs m.name (some r) := by
  cases m with
  | combinator c => exact absurd rfl (other c)
  | isVariant v => cases v <;> simp [callOn, name, Needs, numericOfTwo]
  | isSame => simp [callOn, name, Needs]
  | numeric m =>
    have apart : m.name ∉ ["or", "unwrap_or", "and", "xor", "is_same"] := by
      cases m with
      | rounding direction => cases direction <;> decide
      | unary function | binary function => cases function <;> decide
      | _ => decide
    simp only [List.mem_cons, List.not_mem_nil, or_false, not_or] at apart
    have needs : Needs m.name (some r) ↔ m.name ∈ numericOfTwo ∧ r.value.toNumber?.isSome = true := by
      simp [Needs, apart, isNumber_variant]
    rw [name, needs, callOn]
    cases r.value.toNumber? with
    | none => simp
    | some x => simpa using m.isAwaiting_call_iff x given

/-- A method that is no combinator needs a receiver, and is called on its value. -/
theorem exists_dispatch_eq_callOn {name : String} {m : Method} {receiver : Option Resolved}
    (found : ofName? name = some m) (other : ∀ c, m ≠ .combinator c)
    (tolerated : receiver = none → toleratesReceiver name = true) :
    ∃ r, receiver = some r ∧ ∀ given, dispatch name receiver given = callOn (some m) name r.value given := by
  cases receiver with
  | none =>
    have refused : toleratesReceiver name = false := by
      cases m with
      | combinator c => exact absurd rfl (other c)
      | isVariant | isSame | numeric => simp only [toleratesReceiver, found]
    rw [refused] at tolerated
    cases tolerated rfl
  | some r =>
    refine ⟨r, rfl, fun given => ?_⟩
    cases m with
    | combinator c => exact absurd rfl (other c)
    | isVariant | isSame | numeric => simp only [dispatch, found]

theorem dispatch_eq_combinator {name : String} {c : Combinator} (found : ofName? name = some (.combinator c))
    (receiver : Option Resolved) (given : Nat) : dispatch name receiver given = c.call receiver given := by
  simp only [dispatch, found]

/-- A call awaits an argument exactly if it needs one and is given one. -/
theorem isAwaiting_dispatch_iff {name : String} {receiver : Option Resolved}
    (tolerated : receiver = none → toleratesReceiver name = true) (given : Nat) :
    (dispatch name receiver given).isAwaiting = true ↔ given = 1 ∧ Needs name receiver := by
  cases found : ofName? name with
  | none =>
    have idle : ¬Needs name receiver := fun needs => by simpa [found] using needs.isSome_ofName?
    cases receiver <;> simp [dispatch, found, callOn, idle]
  | some m =>
    obtain rfl := name_of_ofName? found
    by_cases combinator : ∃ c, m = .combinator c
    · obtain ⟨c, rfl⟩ := combinator
      rw [dispatch_eq_combinator found]
      exact c.isAwaiting_call_iff receiver given
    · rw [not_exists] at combinator
      obtain ⟨r, rfl, called⟩ := exists_dispatch_eq_callOn found combinator tolerated
      rw [called]
      exact isAwaiting_callOn_iff combinator r given

/-! ## Calls that fail at once -/

/-- What is wrong with a call whatever its arguments are: there is no such method, or it is one of numbers and the
receiver is none, or it takes another number of arguments. -/
inductive Misuse (name : String) (receiver : Option Resolved) (given : Nat) : Failure → Prop where
  | unknown {r : Resolved} (present : receiver = some r) (unknown : ofName? name = none) :
      Misuse name receiver given (.unknownMethod r.value.variant name)
  | notANumber {m : NumericMethod} {r : Resolved} (found : ofName? name = some (.numeric m))
      (present : receiver = some r) (other : r.value.variant.isNumber = false) :
      Misuse name receiver given (.unknownMethod r.value.variant name)
  | count {m : Method} (found : ofName? name = some m)
      (applies : ∀ n, m = .numeric n → ∃ r ∈ receiver, r.value.variant.isNumber = true) (wrong : given ≠ m.arity) :
      Misuse name receiver given (.arity name m.arity given)

end Method

theorem Dispatch.withArity_of_ne {name : String} {expected given : Nat} (wrong : given ≠ expected) (d : Dispatch) :
    withArity name expected given d = fail (.arity name expected given) := if_neg wrong

theorem Combinator.call_of_ne {c : Combinator} {given : Nat} (wrong : given ≠ c.arity) (receiver : Option Resolved) :
    c.call receiver given = .settled (.error (.arity c.name c.arity given)) := by
  cases c <;> exact Dispatch.withArity_of_ne wrong _

theorem NumericMethod.call_of_ne {m : NumericMethod} {given : Nat} (wrong : given ≠ m.arity) (x : Number) :
    m.call x given = .settled (.error (.arity m.name m.arity given)) := by
  cases m <;> exact Dispatch.withArity_of_ne wrong _

namespace Method

theorem callOn_of_ne {m : Method} {r : Resolved} {given : Nat} (other : ∀ c, m ≠ .combinator c)
    (applies : ∀ n, m = .numeric n → r.value.variant.isNumber = true) (wrong : given ≠ m.arity) :
    callOn (some m) m.name r.value given = .settled (.error (.arity m.name m.arity given)) := by
  cases m with
  | combinator c => exact absurd rfl (other c)
  | isVariant v => exact Dispatch.withArity_of_ne wrong _
  | isSame => exact Dispatch.withArity_of_ne wrong _
  | numeric n =>
    have number := applies n rfl
    rw [isNumber_variant] at number
    obtain ⟨x, found⟩ := Option.isSome_iff_exists.1 number
    simp only [callOn, found]
    exact NumericMethod.call_of_ne wrong x

/-- A call that is misused fails with nothing awaited. -/
theorem dispatch_of_misuse {name : String} {receiver : Option Resolved} {given : Nat} {failure : Failure}
    (tolerated : receiver = none → toleratesReceiver name = true) (misuse : Misuse name receiver given failure) :
    dispatch name receiver given = .settled (.error failure) := by
  cases misuse with
  | unknown present unknown =>
    subst present
    simp only [dispatch, unknown]
    rfl
  | notANumber found present other =>
    subst present
    rw [isNumber_variant, Option.isSome_eq_false_iff, Option.isNone_iff_eq_none] at other
    simp only [dispatch, found, callOn, other]
    rfl
  | count found applies wrong =>
    rename_i m
    obtain rfl := name_of_ofName? found
    by_cases combinator : ∃ c, m = .combinator c
    · obtain ⟨c, rfl⟩ := combinator
      rw [dispatch_eq_combinator found]
      exact Combinator.call_of_ne wrong receiver
    · rw [not_exists] at combinator
      obtain ⟨r, rfl, called⟩ := exists_dispatch_eq_callOn found combinator tolerated
      rw [called]
      exact callOn_of_ne combinator (fun n same => by simpa using applies n same) wrong

/-! ## What is evaluated -/

instance (name : String) (receiver : Option Resolved) : Decidable (Needs name receiver) :=
  inferInstanceAs (Decidable (_ ∨ _))

/-- To note what is evaluated does not change what a call comes to. -/
theorem callNoting_fst (name : String) (receiver : Option Resolved) (args : List (Except Failure (Option Resolved))) :
    (callNoting name receiver args).1 = callDeferred name receiver args := by
  rw [callNoting, callDeferred, callDeferred, List.length_mapIdx]
  generalize dispatch name receiver args.length = d
  -- whatever was noted before
  generalize ([] : List Nat) = places
  induction d generalizing places with
  | settled outcome => rfl
  | awaits place resume ih =>
    have noted : (args.mapIdx note)[place]? = args[place]?.map (note place) := List.getElem?_mapIdx
    rw [Dispatch.run, Dispatch.run, noted]
    cases args[place]? with
    | none => exact ih none places
    | some argument =>
      cases argument with
      | error failure => rfl
      | ok value => exact ih value (places ++ [place])

/-- The only argument is evaluated, and that once, if its value is needed, and none is otherwise. -/
theorem callNoting_snd {name : String} {receiver : Option Resolved}
    (tolerated : receiver = none → toleratesReceiver name = true) (args : List (Except Failure (Option Resolved))) :
    (callNoting name receiver args).2 = if args.length = 1 ∧ Needs name receiver then [0] else [] := by
  have awaits := isAwaiting_dispatch_iff tolerated args.length
  obtain ⟨outcome, dispatched⟩ | ⟨resume, dispatched⟩ := dispatch_cases name receiver args.length
  · rw [dispatched] at awaits
    rw [callNoting_of_settled dispatched, if_neg (awaits.not.1 (by simp))]
  · rw [dispatched] at awaits
    have needed := awaits.1 rfl
    obtain ⟨argument, rfl⟩ := List.length_eq_one_iff.1 needed.1
    rw [callNoting_of_first dispatched, if_pos needed]

/-- An argument that is not evaluated may come to anything. -/
theorem callDeferred_set {name : String} {receiver : Option Resolved} {args : List (Except Failure (Option Resolved))}
    {place : Nat} (idle : place ∉ (callNoting name receiver args).2) (x : Except Failure (Option Resolved)) :
    callDeferred name receiver (args.set place x) = callDeferred name receiver args := by
  have length : (args.set place x).length = args.length := List.length_set
  obtain ⟨outcome, dispatched⟩ | ⟨resume, dispatched⟩ := dispatch_cases name receiver args.length
  · rw [callDeferred_of_settled dispatched]
    rw [← length] at dispatched
    exact callDeferred_of_settled dispatched
  · cases args with
    | nil => rw [List.set_nil]
    | cons argument rest =>
      cases place with
      | zero =>
        rw [callNoting_of_first dispatched] at idle
        exact absurd List.mem_cons_self idle
      | succ place =>
        rw [callDeferred_of_first dispatched]
        rw [← length] at dispatched
        exact callDeferred_of_first dispatched

end Method

namespace Evaluation

variable {go : Expr → Outcome} {scope : Scope}

theorem present_of_ok {e : Expr} {r : Resolved} (ok : go e = .ok r) : present go e = .ok (some r) := by
  rw [present, ok]
  rfl

theorem present_of_error {e : Expr} {failure : Failure} (fails : go e = .error failure) :
    present go e = .error failure := by
  rw [present, fails]
  rfl

/-- An operand is missing, where that is tolerated, or it is evaluated. -/
theorem operand_eq_ok {tolerated : Bool} {e : Expr} {operand? : Option Resolved}
    (ok : operand go scope tolerated e = .ok operand?) :
    (tolerated = true ∧ scope.misses e = true ∧ operand? = none)
      ∨ (tolerated = true → scope.misses e = false) ∧ ∃ r, go e = .ok r ∧ operand? = some r := by
  rw [operand_eq] at ok
  split at ok
  · rename_i missing
    rw [Bool.and_eq_true] at missing
    cases ok
    exact .inl ⟨missing.1, missing.2, rfl⟩
  · rename_i declared
    refine .inr ⟨fun tolerated => by simpa [tolerated] using declared, ?_⟩
    cases result : go e with
    | error failure =>
      rw [present_of_error result] at ok
      cases ok
    | ok r =>
      rw [present_of_ok result] at ok
      cases ok
      exact ⟨r, rfl, rfl⟩

/-- The places of the arguments that are evaluated in a call: none if the receiver fails. -/
def evaluatedArguments (go : Expr → Outcome) (scope : Scope) (receiver : Expr) (method : String) (args : List Expr) :
    List Nat :=
  match operand go scope (Method.toleratesReceiver method) receiver with
  | .error _ => []
  | .ok r => (Method.callNoting method r (args.map (operand go scope (Method.toleratesArgument method)))).2

variable {receiver : Expr} {method : String} {args : List Expr}

theorem mem_evaluatedArguments_iff {place : Nat} :
    place ∈ evaluatedArguments go scope receiver method args
      ↔ place = 0 ∧ args.length = 1
        ∧ ∃ r, operand go scope (Method.toleratesReceiver method) receiver = .ok r ∧ Method.Needs method r := by
  unfold evaluatedArguments
  split
  · rename_i failure failed
    simp [failed]
  · rename_i r found
    have tolerated : r = none → Method.toleratesReceiver method = true := by
      rintro rfl
      obtain ⟨tolerated, -⟩ | ⟨-, r, -, present⟩ := operand_eq_ok found
      · exact tolerated
      · cases present
    rw [Method.callNoting_snd tolerated, List.length_map]
    split
    · rename_i needed
      simp [found, needed]
    · rename_i idle
      simpa [found] using fun _ => not_and.1 idle

/-- An argument that is not evaluated may be anything. -/
theorem methodCall_set {place : Nat} (idle : place ∉ evaluatedArguments go scope receiver method args) (t : Expr) :
    methodCall go scope receiver method (args.set place t) = methodCall go scope receiver method args := by
  rw [methodCall_eq_callDeferred, methodCall_eq_callDeferred]
  unfold evaluatedArguments at idle
  cases found : operand go scope (Method.toleratesReceiver method) receiver with
  | error failure => rfl
  | ok r =>
    rw [found] at idle
    show Method.callDeferred method r ((args.set place t).map _) = Method.callDeferred method r (args.map _)
    rw [List.map_set]
    exact Method.callDeferred_set idle _

/-- A method evaluates none of its arguments but the first, once, and that one only if it is the only one and its value
is needed. A call that is misused fails without evaluating any. So in an expression an argument that is not evaluated
may be replaced by any other. -/
theorem methodCall_evaluates_needed :
    (∀ (name : String) (receiver : Option Resolved) (args : List (Except Failure (Option Resolved))),
        (receiver = none → Method.toleratesReceiver name = true) →
        (Method.callNoting name receiver args).1 = Method.callDeferred name receiver args
          ∧ (Method.callNoting name receiver args).2
            = (if args.length = 1 ∧ Method.Needs name receiver then [0] else [])
          ∧ ∀ failure, Method.Misuse name receiver args.length failure →
              Method.callNoting name receiver args = (.error failure, []))
      ∧ ∀ (scope : Scope) (receiver : Expr) (method : String) (args : List Expr),
        (∀ go : Expr → Outcome,
            methodCall go scope receiver method args
              = (operand go scope (Method.toleratesReceiver method) receiver >>= fun r =>
                  Method.callDeferred method r (args.map (operand go scope (Method.toleratesArgument method))))
            ∧ ∀ place, place ∈ evaluatedArguments go scope receiver method args
              ↔ place = 0 ∧ args.length = 1
                ∧ ∃ r, operand go scope (Method.toleratesReceiver method) receiver = .ok r
                  ∧ Method.Needs method r)
          ∧ ∀ (resolving : List String) (place : Nat) (t : Expr),
            (∀ budget, place ∉ evaluatedArguments (resolve scope budget resolving) scope receiver method args →
                resolve scope (budget + 1) resolving (.methodCall receiver method (args.set place t))
                  = resolve scope (budget + 1) resolving (.methodCall receiver method args))
              ∧ (place ∉ evaluatedArguments (outcome scope resolving) scope receiver method args →
                outcome scope resolving (.methodCall receiver method (args.set place t))
                  = outcome scope resolving (.methodCall receiver method args)) := by
  constructor
  · intro name receiver args tolerated
    refine ⟨Method.callNoting_fst name receiver args, Method.callNoting_snd tolerated args, ?_⟩
    intro failure misuse
    exact Method.callNoting_of_settled (Method.dispatch_of_misuse tolerated misuse)
  · intro scope receiver method args
    refine ⟨fun go => ⟨methodCall_eq_callDeferred .., fun _ => mem_evaluatedArguments_iff⟩, fun resolving place t => ⟨?_, ?_⟩⟩
    · intro budget idle
      exact methodCall_set idle t
    · intro idle
      rw [outcome_eq_step, outcome_eq_step]
      exact methodCall_set idle t

/-- The argument of a combinator whose receiver has content may stand in a cycle, and that of a wrong call as well. -/
theorem methodCall_evaluates_needed_or :
    let circular : Scope := ⟨Bindings.empty.insert "a" (some (.path ["a"])), 64⟩
    circular.evaluate (.path ["a"]) = .error (.cyclicReference ["a", "a"])
      ∧ outcome circular [] (.methodCall (.literal (.int 5)) "or" [.path ["a"]])
        = outcome circular [] (.methodCall (.literal (.int 5)) "or" [.literal .none])
      ∧ Method.callNoting "max" (some ⟨.int 5, false⟩) [.error .unwrapOfNone, .ok none]
        = (.error (.arity "max" 1 2), [])
      ∧ Method.callNoting "max" (some ⟨.int 5, false⟩) [.error .unwrapOfNone] = (.error .unwrapOfNone, [0]) := by
  intro circular
  obtain ⟨calls, replaced⟩ := methodCall_evaluates_needed
  refine ⟨rfl, ?_, ?_, ?_⟩
  · obtain ⟨evaluated, same⟩ := replaced circular (.literal (.int 5)) "or" [.literal .none]
    refine (same [] 0 (.path ["a"])).2 ?_
    rw [(evaluated _).2]
    rintro ⟨-, -, r, receiver, needs⟩
    obtain rfl : some ⟨.int 5, false⟩ = r := by injection receiver
    revert needs
    decide
  · obtain ⟨-, -, misused⟩ := calls "max" (some ⟨.int 5, false⟩) [.error .unwrapOfNone, .ok none] (by simp)
    exact misused _ (.count (m := .numeric .max) rfl (fun _ _ => ⟨_, rfl, rfl⟩) (by decide))
  · obtain ⟨same, evaluated, -⟩ := calls "max" (some ⟨.int 5, false⟩) [.error .unwrapOfNone] (by simp)
    exact Prod.ext same evaluated

end Evaluation

end NamedExpr
