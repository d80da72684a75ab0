import NamedExpr.Chain
import NamedExpr.Evaluation
/-!
# What operations make of well-formed values

Integers have 64 bits, and a vector holds no option without content. Operators, chains and methods keep it so: on
values that are well formed they give a well-formed value or fail for a reason of their own (`isOfOperation`), and
never because they were given something they cannot take. Each function has one lemma, which says both (`Meets`).
-/

namespace NamedExpr

namespace Value

mutual

/-- Whether every integer in a value has 64 bits, and no vector in it holds an option without content. -/
def isWellFormed : Value → Bool
  | .int n => fits64 n
  | .range start stop => fits64 start && fits64 stop
  | .vec items => areElements items
  | .bool _ | .float _ | .str _ | .none => true

/-- Whether all of some values are well formed and none of them is an option without content. -/
def areElements : List Value → Bool
  | [] => true
  | v :: rest => isWellFormed v && !v.isNone && areElements rest

end

theorem areElements_iff {items : List Value} :
    areElements items = true ↔ ∀ v ∈ items, v.isWellFormed = true ∧ v.isNone = false := by
  induction items with
  | nil => simp [areElements]
  | cons v items ih => simp [areElements, ih]

end Value

namespace Failure

/-- Whether a failure is one of an operation, a method or a name, as the language has them. -/
def isOperational : Failure → Bool
  | .unresolvedName _ | .notPermitted .. | .notPermittedUnary .. | .unordered .. | .integerOverflow _
  | .divisionByZero | .remainderByZero | .repeatTooLong | .rangeBounds .. | .notIndexable .. | .indexOutOfRange ..
  | .sliceOutOfRange .. | .noneInCollection | .unknownFunction _ | .unknownMethod .. | .arity .. | .notANumber ..
  | .exponentNotInteger _ | .noIntegerValue .. | .roundedOutOfRange .. | .unwrapOfNone | .ambiguousXor ..
  | .cyclicReference _ | .depthExceeded _ => true
  | _ => false

/-- Whether a failure says that a name cannot be resolved. -/
def isOfName : Failure → Bool
  | .unresolvedName _ | .cyclicReference _ | .depthExceeded _ => true
  | _ => false

/-- Whether a failure is one of an operation or a method, as the language has them. -/
def isOfOperation (failure : Failure) : Bool := failure.isOperational && !failure.isOfName

theorem isOperational_of_isOfOperation {failure : Failure} (h : failure.isOfOperation = true) :
    failure.isOperational = true := by
  rw [isOfOperation, Bool.and_eq_true] at h
  exact h.1

end Failure

/-! ## Results and failures at once -/

/-- A result has a property, a failure another. -/
def Meets {α : Type} (fails : Failure → Prop) (holds : α → Prop) : Except Failure α → Prop
  | .ok a => holds a
  | .error failure => fails failure

namespace Meets

variable {α β : Type} {fails fails' : Failure → Prop} {holds : α → Prop} {holds' : β → Prop}

theorem bind {x : Except Failure α} {f : α → Except Failure β} (first : Meets fails holds x)
    (rest : ∀ a, holds a → Meets fails holds' (f a)) : Meets fails holds' (x >>= f) := by
  cases x with
  | ok a => exact rest a first
  | error failure => exact first

theorem map {x : Except Failure α} {f : α → β} (h : Meets fails holds x) (image : ∀ a, holds a → holds' (f a)) :
    Meets fails holds' (x.map f) := by
  cases x with
  | ok a => exact image a h
  | error failure => exact h

theorem imp {holds' : α → Prop} {x : Except Failure α} (h : Meets fails holds x)
    (image : ∀ a, holds a → holds' a) : Meets fails holds' x := by
  cases x with
  | ok a => exact image a h
  | error failure => exact h

theorem mono {x : Except Failure α} (h : Meets fails holds x) (weaker : ∀ failure, fails failure → fails' failure) :
    Meets fails' holds x := by
  cases x with
  | ok a => exact h
  | error failure => exact weaker failure h

end Meets

/-- A well-formed value, or a failure of an operation. -/
abbrev Sound (x : Except Failure Value) : Prop := Meets (·.isOfOperation = true) (·.isWellFormed = true) x

/-- An outcome with a well-formed value, or a failure of an operation. -/
abbrev SoundOutcome (x : Except Failure Resolved) : Prop :=
  Meets (·.isOfOperation = true) (fun r => r.value.isWellFormed = true) x

theorem Sound.outcome {x : Except Failure Value} (h : Sound x) (optional : Bool) :
    SoundOutcome (x.map fun v => ⟨v, optional⟩) :=
  h.map fun _ wellFormed => wellFormed

/-! ## Operators -/

namespace Value

/-- A 64-bit integer is one. -/
theorem ofInt_of_fits {n : Int} (h : fits64 n = true) : ofInt n = .ok (.int n) := by rw [ofInt, if_pos h]

theorem checkedInt_sound (n : Int) : Sound (checkedInt n) := by
  unfold checkedInt
  split
  · rename_i fits
    rw [ofInt_of_fits fits]
    exact fits
  · rfl

theorem repeated_sound (text : String) (times : Int) : Sound (repeated text times) := by
  unfold repeated
  split
  · rfl
  · split
    · rfl
    · rfl

end Value

namespace Operator

theorem comparison_sound (x y : Float) (result : Bool) : Sound (comparison x y result) := by
  unfold comparison
  split
  · rfl
  · rfl

theorem quotient_meets (a b : Int) : Meets (·.isOfOperation = true) (fun _ => True) (quotient a b) := by
  unfold quotient
  split
  · rfl
  · trivial

theorem remainder_meets (a b : Int) : Meets (·.isOfOperation = true) (fun _ => True) (remainder a b) := by
  unfold remainder
  split
  · rfl
  · exact (quotient_meets a b).map fun _ _ => trivial

theorem onInts_sound {op : Operator} (numeric : (op.isArithmetic || op.isOrdering) = true) (a b : Int) :
    Sound (op.onInts a b) := by
  cases op with
  | add | sub | mul => exact Value.checkedInt_sound _
  | div => exact (quotient_meets a b).bind fun n _ => Value.checkedInt_sound n
  | rem => exact (remainder_meets a b).bind fun n _ => Value.checkedInt_sound n
  | gt | lt | ge | le => rfl
  | eq | ne | and | or => cases numeric

theorem onFloats_sound {op : Operator} (numeric : (op.isArithmetic || op.isOrdering) = true) (x y : Float) :
    Sound (op.onFloats x y) := by
  cases op with
  | add | sub | mul | div | rem => rfl
  | gt | lt | ge | le => exact comparison_sound _ _ _
  | eq | ne | and | or => cases numeric

/-- Values are compared for equality if they have one variant, other than that of an option without content. -/
theorem permits_equality_iff {op : Operator} (equality : op.isEquality = true) {left right : Variant} :
    op.permits left right = true ↔ left = right ∧ left ≠ .none := by
  cases op with
  | eq | ne => cases left <;> cases right <;> decide
  | mul | div | rem | add | sub | gt | lt | ge | le | and | or => cases equality

/-- The ways in which an operator is applied: it is refused, or compares values of one variant for equality, or takes two
integers, two floats, a text and an integer, two texts, or two truth values. -/
@[elab_as_elim]
theorem apply_cases {motive : Operator → Value → Value → Except Failure Value → Prop} (op : Operator)
    (left right : Value)
    (refused : op.permits left.variant right.variant = false →
      motive op left right (.error (.notPermitted op left.variant right.variant)))
    (equal : left.variant = right.variant → left.variant ≠ .none →
      motive .eq left right (.ok (.bool (left.equal right))))
    (unequal : left.variant = right.variant → left.variant ≠ .none →
      motive .ne left right (.ok (.bool (!left.equal right))))
    (ints : ∀ op a b, (op.isArithmetic || op.isOrdering) = true → motive op (.int a) (.int b) (op.onInts a b))
    (floats : ∀ op x y, (op.isArithmetic || op.isOrdering) = true → motive op (.float x) (.float y) (op.onFloats x y))
    (copies : ∀ n s, motive .mul (.int n) (.str s) (Value.repeated s n))
    (repeats : ∀ s n, motive .mul (.str s) (.int n) (Value.repeated s n))
    (joins : ∀ s t, motive .add (.str s) (.str t) (.ok (.str (s ++ t))))
    (both : ∀ a b, motive .and (.bool a) (.bool b) (.ok (.bool (a && b))))
    (either : ∀ a b, motive .or (.bool a) (.bool b) (.ok (.bool (a || b)))) :
    motive op left right (op.apply left right) := by
  unfold apply
  split
  · rename_i permitted
    split
    · obtain ⟨same, some⟩ := (permits_equality_iff rfl).1 permitted
      exact equal same some
    · obtain ⟨same, some⟩ := (permits_equality_iff rfl).1 permitted
      exact unequal same some
    · rename_i notEq notNe
      have notEquality : op.isEquality = false := by
        cases op <;> first | rfl | contradiction
      cases left <;> cases right
      case int.int a b => exact ints op a b (by simpa [permits, Value.variant, notEquality] using permitted)
      case float.float x y => exact floats op x y (by simpa [permits, Value.variant, notEquality] using permitted)
      case int.str n s =>
        obtain rfl : op = .mul := by simpa [permits, Value.variant] using permitted
        exact copies n s
      case str.int s n =>
        obtain rfl : op = .mul := by simpa [permits, Value.variant] using permitted
        exact repeats s n
      case str.str s t =>
        obtain rfl : op = .add := by simpa [permits, Value.variant, notEquality] using permitted
        exact joins s t
      case bool.bool a b =>
        obtain rfl | rfl : op = .and ∨ op = .or := by simpa [permits, Value.variant, notEquality] using permitted
        · exact both a b
        · exact either a b
      case vec.vec | range.range => simp [permits, Value.variant, notEquality] at permitted
      all_goals cases permitted
  · rename_i refusal
    exact refused (Bool.eq_false_iff.2 refusal)

theorem apply_sound (op : Operator) (left right : Value) : Sound (op.apply left right) := by
  cases op, left, right using apply_cases with
  | refused | equal | unequal | joins | both | either => rfl
  | ints op a b numeric => exact onInts_sound numeric a b
  | floats op x y numeric => exact onFloats_sound numeric x y
  | copies n s | repeats s n => exact Value.repeated_sound s n

end Operator

theorem UnaryOperator.apply_sound (op : UnaryOperator) (operand : Value) : Sound (op.apply operand) := by
  unfold apply
  split
  · exact Value.checkedInt_sound _
  · rfl
  · rfl
  · rfl

/-! ## Chains -/

namespace Chain

theorem settle_sound (least : Nat) {waiting : List Waiting} {right : Value} (wellFormed : right.isWellFormed = true) :
    Meets (·.isOfOperation = true) (fun result => result.1.isWellFormed = true) (settle least waiting right) := by
  induction waiting generalizing right with
  | nil => exact wellFormed
  | cons w waiting ih =>
    rw [settle]
    have applied := w.op.apply_sound w.left right
    split
    · cases result : w.op.apply w.left right with
      | ok value =>
        rw [result] at applied
        exact ih applied
      | error failure =>
        rw [result] at applied
        exact applied
    · exact wellFormed

theorem run_sound {waiting : List Waiting} {last : Value} {chain : List (Operator × Value)}
    (wellFormed : last.isWellFormed = true) (operands : ∀ p ∈ chain, p.2.isWellFormed = true) :
    Sound (run waiting last chain) := by
  induction chain generalizing waiting last with
  | nil => exact (settle_sound 0 wellFormed).map fun _ h => h
  | cons p chain ih =>
    obtain ⟨op, operand⟩ := p
    obtain ⟨first, others⟩ := List.forall_mem_cons.1 operands
    have settled := @settle_sound op.level waiting last wellFormed
    rw [run]
    cases result : settle op.level waiting last with
    | ok result => exact ih first others
    | error failure =>
      rw [result] at settled
      exact settled

/-- A chain with one operand more than operators is evaluated soundly. -/
theorem fold_sound {operands : List Value} {ops : List Operator} (length : operands.length = ops.length + 1)
    (wellFormed : ∀ v ∈ operands, v.isWellFormed = true) : Sound (fold operands ops) := by
  cases operands with
  | nil => simp at length
  | cons first rest =>
    obtain ⟨head, others⟩ := List.forall_mem_cons.1 wellFormed
    rw [fold, if_pos (Nat.succ.inj length)]
    exact run_sound head fun p hp => others p.2 (List.of_mem_zip hp).2

end Chain

/-! ## Methods -/

namespace Dispatch

/-- A call is sound if its outcome is, whatever the arguments are that it asks for. -/
def IsSound : Dispatch → Prop
  | .settled outcome => SoundOutcome outcome
  | .awaits _ resume => ∀ argument : Option Resolved, (∀ r ∈ argument, r.value.isWellFormed = true) →
      (resume argument).IsSound

theorem fail_sound {failure : Failure} (operation : failure.isOfOperation = true) : (fail failure).IsSound := operation

theorem value_sound {v : Value} (wellFormed : v.isWellFormed = true) (optional : Bool) : (value v optional).IsSound :=
  wellFormed

theorem withArity_sound {name : String} {expected given : Nat} {d : Dispatch} (h : d.IsSound) :
    (withArity name expected given d).IsSound := by
  unfold withArity
  split
  · exact h
  · exact fail_sound rfl

theorem first_sound {resume : Option Resolved → Except Failure Resolved}
    (h : ∀ argument : Option Resolved, (∀ r ∈ argument, r.value.isWellFormed = true) → SoundOutcome (resume argument)) :
    (first resume).IsSound := h

theorem fromArgument_sound {f : Value → Except Failure Value} (h : ∀ v, v.isWellFormed = true → Sound (f v)) :
    (fromArgument f).IsSound := by
  refine first_sound fun argument wellFormed => (h _ ?_).outcome false
  cases argument with
  | none => rfl
  | some r => exact wellFormed r rfl

theorem argument_sound (optional : Bool) : (argument optional).IsSound := by
  refine first_sound fun argument wellFormed => ?_
  cases argument with
  | none => rfl
  | some r => exact wellFormed r rfl

end Dispatch

theorem Resolved.content?_wellFormed {receiver : Option Resolved} (h : ∀ r ∈ receiver, r.value.isWellFormed = true)
    {v : Value} (content : content? receiver = some v) : v.isWellFormed = true := by
  cases receiver with
  | none => cases content
  | some r =>
    rw [content?] at content
    split at content
    · cases content
    · obtain rfl := Option.some.inj content
      exact h r rfl

namespace Combinator

open Dispatch

theorem exclusive_sound {mine theirs : Option Value} (hm : ∀ v ∈ mine, v.isWellFormed = true)
    (ht : ∀ v ∈ theirs, v.isWellFormed = true) : SoundOutcome (exclusive mine theirs) := by
  cases mine with
  | none =>
    cases theirs with
    | none => rfl
    | some b => exact ht b rfl
  | some a =>
    cases theirs with
    | none => exact hm a rfl
    | some b => rfl

/-- A combinator is sound on a receiver that is missing only if it tolerates that. -/
theorem call_sound (c : Combinator) {receiver : Option Resolved} (h : ∀ r ∈ receiver, r.value.isWellFormed = true)
    (tolerated : receiver = none → c.toleratesReceiver = true) (given : Nat) : (c.call receiver given).IsSound := by
  cases c with
  | and =>
    refine withArity_sound ?_
    cases receiver with
    | none => cases tolerated rfl
    | some r =>
      show (if r.value.isNone = true then value .none true else argument true).IsSound
      split
      · rfl
      · exact argument_sound true
  | or | unwrapOr =>
    refine withArity_sound ?_
    split
    · rename_i content
      exact Resolved.content?_wellFormed h content
    · exact argument_sound _
  | xor =>
    refine withArity_sound fun other wellFormed => exclusive_sound ?_ ?_
    · exact fun v content => Resolved.content?_wellFormed h content
    · exact fun v content => Resolved.content?_wellFormed wellFormed content
  | unwrap =>
    refine withArity_sound ?_
    split
    · rename_i content
      exact Resolved.content?_wellFormed h content
    · rfl
  | isNone | isSome | isOption => exact withArity_sound rfl

end Combinator

namespace NumericMethod

open Dispatch

theorem toNumber?_toValue {v : Value} {x : Number} (h : v.toNumber? = some x) : x.toValue = v := by
  cases v <;> cases h <;> rfl

theorem roundTo_sound (direction : Rounding) {x : Number} (h : x.toValue.isWellFormed = true) :
    Sound (roundTo direction x) := by
  cases x with
  | int n => exact h
  | float x =>
    simp only [roundTo]
    split
    · rfl
    · rename_i n _
      split
      · rename_i fits
        rw [Value.ofInt_of_fits fits]
        exact fits
      · rfl

theorem magnitude_sound (x : Number) : Sound (magnitude x) := by
  cases x with
  | int n =>
    simp only [magnitude]
    generalize (n.natAbs : Int) = m
    exact Value.checkedInt_sound m
  | float x => rfl

theorem sign_sound (x : Number) : Sound (sign x) := by
  cases x with
  | int n =>
    have fits : fits64 n.sign = true := by
      rw [fits64_iff]
      obtain h | h | h := Int.lt_trichotomy n 0
      · rw [Int.sign_eq_neg_one_of_neg h]
        decide
      · rw [h]
        decide
      · rw [Int.sign_eq_one_of_pos h]
        decide
    show Sound (Value.ofInt n.sign)
    rw [Value.ofInt_of_fits fits]
    exact fits
  | float x => rfl

/-- Choosing one of two integers, and computing with floats, is sound. -/
theorem extreme_sound {onInts : Int → Int → Int} (chooses : ∀ a b, onInts a b = a ∨ onInts a b = b)
    (onFloats : Float → Float → Float) {x y : Number} (hx : x.toValue.isWellFormed = true)
    (hy : y.toValue.isWellFormed = true) : Sound (extreme onInts onFloats x y) := by
  unfold extreme
  split
  · rename_i a b
    have fits : fits64 (onInts a b) = true := by
      obtain first | second := chooses a b
      · rw [first]
        exact hx
      · rw [second]
        exact hy
    rw [Value.ofInt_of_fits fits]
    exact fits
  · rfl

theorem withNumber_sound {name : String} {v : Value} {f : Number → Except Failure Value}
    (h : ∀ y : Number, y.toValue = v → Sound (f y)) : Sound (withNumber name v f) := by
  unfold withNumber
  split
  · rename_i y number
    exact h y (toNumber?_toValue number)
  · rfl

theorem integerPower_sound (x : Number) (v : Value) : Sound (integerPower x v) := by
  unfold integerPower
  split
  · rfl
  · rfl

theorem call_sound (m : NumericMethod) {x : Number} (h : x.toValue.isWellFormed = true) (given : Nat) :
    (m.call x given).IsSound := by
  cases m with
  | rounding direction => exact withArity_sound ((roundTo_sound direction h).outcome false)
  | abs => exact withArity_sound ((magnitude_sound x).outcome false)
  | signum => exact withArity_sound ((sign_sound x).outcome false)
  | max =>
    refine withArity_sound (fromArgument_sound fun v wellFormed => withNumber_sound fun y same => ?_)
    exact extreme_sound (fun a b => by omega) _ h (same ▸ wellFormed)
  | min =>
    refine withArity_sound (fromArgument_sound fun v wellFormed => withNumber_sound fun y same => ?_)
    exact extreme_sound (fun a b => by omega) _ h (same ▸ wellFormed)
  | powi => exact withArity_sound (fromArgument_sound fun v _ => integerPower_sound x v)
  | unary function =>
    refine withArity_sound ?_
    show Value.isWellFormed (.float _) = true
    rw [Value.isWellFormed]
  | binary function => exact withArity_sound (fromArgument_sound fun v _ => withNumber_sound fun y _ => rfl)

end NumericMethod

namespace Method

open Dispatch

theorem callOn_sound (m : Option Method) (name : String) {receiver : Value} (h : receiver.isWellFormed = true)
    (given : Nat) : (callOn m name receiver given).IsSound := by
  unfold callOn
  split
  · exact withArity_sound rfl
  · exact withArity_sound (fromArgument_sound fun _ _ => rfl)
  · split
    · rename_i number
      refine NumericMethod.call_sound _ ?_ given
      rwa [NumericMethod.toNumber?_toValue number]
    · rfl
  · rfl

/-- A call is sound on a receiver that is missing only if the method tolerates that. -/
theorem dispatch_sound (name : String) {receiver : Option Resolved} (h : ∀ r ∈ receiver, r.value.isWellFormed = true)
    (tolerated : receiver = none → toleratesReceiver name = true) (given : Nat) :
    (dispatch name receiver given).IsSound := by
  unfold toleratesReceiver at tolerated
  unfold dispatch
  cases found : ofName? name with
  | none =>
    rw [found] at tolerated
    cases receiver with
    | none => cases tolerated rfl
    | some r => exact callOn_sound _ name (h r rfl) given
  | some m =>
    rw [found] at tolerated
    cases m with
    | combinator c => exact c.call_sound h tolerated given
    | isVariant | isSame | numeric =>
      cases receiver with
      | none => cases tolerated rfl
      | some r => exact callOn_sound _ name (h r rfl) given

end Method

namespace Evaluation

/-! ## Ranges and parts -/

theorem range_sound {start stop : Value} (hstart : start.isWellFormed = true) (hstop : stop.isWellFormed = true)
    (inclusive : Bool) : Sound (range start stop inclusive) := by
  unfold range
  split
  · rename_i a b
    split
    · split
      · rename_i fits
        exact (Bool.and_eq_true _ _).mpr ⟨hstart, fits⟩
      · rfl
    · exact (Bool.and_eq_true _ _).mpr ⟨hstart, hstop⟩
  · rfl

theorem index_sound {target : Value} (h : target.isWellFormed = true) (place : Value) : Sound (index target place) := by
  unfold index
  split
  · rename_i items i
    split
    · split
      · rename_i item found
        exact (Value.areElements_iff.1 h item (List.mem_of_getElem? found)).1
      · rfl
    · rfl
  · split
    · rfl
    · rfl
  · rfl

end Evaluation

end NamedExpr
