import NamedExpr.Proofs.IntegerArithmetic
import NamedExpr.Proofs.Operations
import NamedExpr.Proofs.Scales
/-!
# Variants of chains

The variant of a result depends on the variants of the operands alone. For one operator it is given by a table
(`Operator.resultVariant?`), which has a variant exactly where the operator is permitted; for a chain the table is
followed through the grouping (`Grouping.variant?`). An option without content is in no row of the table, and every
operand of a grouping with an operator is combined with another, so one such operand leaves the whole without a variant
(`Grouping.variant?_of_none_mem`). A chain fails with what one of its combinations fails with
(`Grouping.exists_combines_of_eval`), and that is a mismatch of operands or a fault of arithmetic.
-/

namespace NamedExpr

-- Powers are those of the core library, also beside modules that bring others.
attribute [local instance (high)] instPowNat

/-! ## One operator -/

/-- Whether a failure is one of an operator: a mismatch of operands, or a fault of arithmetic. -/
def Failure.IsOfOperator (failure : Failure) : Prop :=
  failure.kind = .operandMismatch ∨ failure.kind = .arithmeticFault

/-- A value of a variant, or a failure of an operator. -/
abbrev HasVariant (variant? : Option Variant) (x : Except Failure Value) : Prop :=
  Meets Failure.IsOfOperator (fun v => variant? = some v.variant) x

theorem Value.checkedInt_hasVariant (n : Int) : HasVariant (some .int) (checkedInt n) := by
  unfold checkedInt
  split
  · rename_i fits
    rw [ofInt_of_fits fits]
    rfl
  · exact .inr rfl

theorem Value.repeated_hasVariant (text : String) (times : Int) : HasVariant (some .str) (repeated text times) := by
  unfold repeated
  split
  · rfl
  · split
    · exact .inr rfl
    · rfl

namespace Operator

/-- The variant of what an operator makes of operands of two variants. Arithmetic keeps the kind of number, and joins
and repeats texts; comparison and logic make truth values. -/
def resultVariant? (op : Operator) (left right : Variant) : Option Variant :=
  if op.isArithmetic then
    match op, left, right with
    | _, .int, .int => some .int
    | _, .float, .float => some .float
    | .add, .str, .str | .mul, .str, .int | .mul, .int, .str => some .str
    | _, _, _ => none
  else if op.isEquality then if left = right ∧ left ≠ .none then some .bool else none
  else if op.isOrdering then if left = right ∧ left.isNumber then some .bool else none
  else if left = .bool ∧ right = .bool then some .bool else none

/-- An operator is permitted exactly for the variants that it makes something of. -/
theorem permits_eq_isSome (op : Operator) (left right : Variant) :
    op.permits left right = (op.resultVariant? left right).isSome := by
  cases op <;> cases left <;> cases right <;> rfl

/-- No operator makes anything of an option without content. -/
theorem resultVariant?_of_none (op : Operator) {left right : Variant} (none : left = .none ∨ right = .none) :
    op.resultVariant? left right = .none := by
  obtain rfl | rfl := none
  · cases op <;> cases right <;> rfl
  · cases op <;> cases left <;> rfl

theorem resultVariant?_of_equality {op : Operator} (equality : op.isEquality = true) {left right : Variant}
    (same : left = right) (content : left ≠ .none) : op.resultVariant? left right = some .bool := by
  subst same
  cases op with
  | eq | ne => simpa [resultVariant?, isArithmetic, isEquality] using content
  | mul | div | rem | add | sub | gt | lt | ge | le | and | or => cases equality

theorem comparison_hasVariant (x y : Float) (result : Bool) : HasVariant (some .bool) (comparison x y result) := by
  unfold comparison
  split
  · exact .inl rfl
  · rfl

theorem onInts_hasVariant {op : Operator} (numeric : (op.isArithmetic || op.isOrdering) = true) (a b : Int) :
    HasVariant (op.resultVariant? .int .int) (op.onInts a b) := by
  cases op with
  | add | sub | mul => exact Value.checkedInt_hasVariant _
  | div =>
    rw [onInts, quotient_eq]
    split
    · exact .inr rfl
    · exact Value.checkedInt_hasVariant _
  | rem =>
    rw [onInts, remainder_eq]
    split
    · exact .inr rfl
    · exact Value.checkedInt_hasVariant _
  | gt | lt | ge | le => rfl
  | eq | ne | and | or => cases numeric

theorem onFloats_hasVariant {op : Operator} (numeric : (op.isArithmetic || op.isOrdering) = true) (x y : Float) :
    HasVariant (op.resultVariant? .float .float) (op.onFloats x y) := by
  cases op with
  | add | sub | mul | div | rem => rfl
  | gt | lt | ge | le => exact comparison_hasVariant _ _ _
  | eq | ne | and | or => cases numeric

/-- What an operator makes of two values has the variant that the table has for theirs. -/
theorem apply_hasVariant (op : Operator) (left right : Value) :
    HasVariant (op.resultVariant? left.variant right.variant) (op.apply left right) := by
  cases op, left, right using apply_cases with
  | refused => exact .inl rfl
  | equal same some | unequal same some => exact resultVariant?_of_equality rfl same some
  | ints op a b numeric => exact onInts_hasVariant numeric a b
  | floats op x y numeric => exact onFloats_hasVariant numeric x y
  | copies n s | repeats s n => exact Value.repeated_hasVariant s n
  | joins | both | either => rfl

/-- An option without content does not go with anything. -/
theorem apply_of_none (op : Operator) {left right : Value} (none : left = .none ∨ right = .none) :
    op.apply left right = .error (.notPermitted op left.variant right.variant) := by
  have variant : left.variant = .none ∨ right.variant = .none := none.imp (by rintro rfl; rfl) (by rintro rfl; rfl)
  unfold apply
  rw [permits_eq_isSome, resultVariant?_of_none op variant, Option.isSome_none, if_neg Bool.false_ne_true]

end Operator

/-! ## Groupings -/

namespace Grouping

variable {α β : Type}

/-- A grouping with every operand replaced. -/
def map (f : α → β) : Grouping α → Grouping β
  | .operand a => .operand (f a)
  | .binary op left right => .binary op (left.map f) (right.map f)

/-- The operands of a grouping, from the left. -/
def operands : Grouping α → List α
  | .operand a => [a]
  | .binary _ left right => left.operands ++ right.operands

/-- The variant that the operators of a grouping lead to from the variants of its operands. -/
def variant? : Grouping Variant → Option Variant
  | .operand variant => some variant
  | .binary op left right => do op.resultVariant? (← left.variant?) (← right.variant?)

/-- Grouping a chain does not look at the operands. -/
theorem map_ofChain (f : α → β) (level : Operator → Nat) (first : α) (chain : List (Operator × α)) :
    (ofChain level first chain).map f = ofChain level (f first) (chain.map fun p => (p.1, f p.2)) := by
  fun_induction ofChain level first chain with
  | case1 first chain none =>
    obtain rfl := splitLowest_eq_none.1 none
    rw [List.map_nil, ofChain_nil, map]
  | case2 first chain before lowest b after split left right =>
    obtain ⟨rfl, noLower, higher⟩ := splitLowest_eq_some split
    rw [map, left, right, List.map_append, List.map_cons, ofChain_append]
    · exact List.forall_mem_map.2 noLower
    · exact List.forall_mem_map.2 higher

theorem operands_ofChain (level : Operator → Nat) (first : α) (chain : List (Operator × α)) :
    (ofChain level first chain).operands = first :: chain.map Prod.snd := by
  fun_induction ofChain level first chain with
  | case1 first chain none =>
    obtain rfl := splitLowest_eq_none.1 none
    rfl
  | case2 first chain before lowest b after split left right =>
    obtain ⟨rfl, -, -⟩ := splitLowest_eq_some split
    rw [operands, left, right, List.map_append, List.map_cons, List.cons_append]

/-- An option without content is the whole of a grouping, or leaves it without a variant. -/
theorem variant?_of_none_mem {g : Grouping Variant} (member : .none ∈ g.operands) :
    g = .operand .none ∨ g.variant? = none := by
  induction g with
  | operand variant =>
    rw [operands, List.mem_singleton] at member
    exact .inl (congrArg operand member.symm)
  | binary op left right ihLeft ihRight =>
    right
    rw [variant?]
    obtain inLeft | inRight := List.mem_append.1 member
    · obtain rfl | none := ihLeft inLeft
      · cases right.variant? with
        | none => rfl
        | some variant => exact op.resultVariant?_of_none (.inl rfl)
      · rw [none]
        rfl
    · cases left.variant? with
      | none => rfl
      | some variant =>
        obtain rfl | none := ihRight inRight
        · exact op.resultVariant?_of_none (.inr rfl)
        · rw [none]
          rfl

/-- The value of a grouping has the variant that its operators lead to. -/
theorem eval_hasVariant (g : Grouping Value) : HasVariant (g.map Value.variant).variant? g.eval := by
  induction g with
  | operand v => rfl
  | binary op left right ihLeft ihRight =>
    refine ihLeft.bind fun a ofLeft => ihRight.bind fun b ofRight => ?_
    rw [map, variant?, ofLeft, ofRight]
    exact op.apply_hasVariant a b

/-- An operator of a grouping comes to be applied to two values: all that is evaluated before it has a value. -/
inductive Combines (op : Operator) (a b : Value) : Grouping Value → Prop where
  | whole {left right : Grouping Value} (ofLeft : left.eval = .ok a) (ofRight : right.eval = .ok b) :
      Combines op a b (.binary op left right)
  | inLeft {outer : Operator} {left right : Grouping Value} (inside : Combines op a b left) :
      Combines op a b (.binary outer left right)
  | inRight {outer : Operator} {left right : Grouping Value} {v : Value} (ofLeft : left.eval = .ok v)
      (inside : Combines op a b right) : Combines op a b (.binary outer left right)

/-- A grouping fails with what one of its operators fails with. -/
theorem exists_combines_of_eval {g : Grouping Value} {failure : Failure} (fault : g.eval = .error failure) :
    ∃ op a b, g.Combines op a b ∧ op.apply a b = .error failure := by
  induction g with
  | operand v => cases fault
  | binary op left right ihLeft ihRight =>
    rw [eval] at fault
    cases ofLeft : left.eval with
    | error failure' =>
      rw [ofLeft] at fault
      cases fault
      obtain ⟨op', a, b, inside, failed⟩ := ihLeft ofLeft
      exact ⟨op', a, b, .inLeft inside, failed⟩
    | ok a =>
      rw [ofLeft] at fault
      cases ofRight : right.eval with
      | error failure' =>
        rw [ofRight] at fault
        cases fault
        obtain ⟨op', c, b, inside, failed⟩ := ihRight ofRight
        exact ⟨op', c, b, .inRight ofLeft inside, failed⟩
      | ok b =>
        rw [ofRight] at fault
        exact ⟨op, a, b, .whole ofLeft ofRight, fault⟩

end Grouping

/-! ## Chains -/

namespace Chain

/-- The value of a chain has the variant that its operators lead to from the variants of its operands. -/
theorem fold_hasVariant (first : Value) {rest : List Value} {ops : List Operator} (length : rest.length = ops.length) :
    HasVariant (Grouping.ofChain Operator.level first.variant (ops.zip (rest.map Value.variant))).variant?
      (fold (first :: rest) ops) := by
  have typed := (Grouping.ofChain Operator.level first (ops.zip rest)).eval_hasVariant
  rw [← fold_eq_eval length, Grouping.map_ofChain] at typed
  rw [List.zip_map_right]
  exact typed

/-- An operand without content leaves a chain with an operator without a variant. -/
theorem variant?_of_none_mem {first : Value} {rest : List Value} {ops : List Operator}
    (length : rest.length = ops.length) (some : ops ≠ []) (member : .none ∈ first :: rest) :
    (Grouping.ofChain Operator.level first.variant (ops.zip (rest.map Value.variant))).variant? = none := by
  have variants : (ops.zip (rest.map Value.variant)).map Prod.snd = rest.map Value.variant :=
    List.map_snd_zip (by simp [length])
  have inside : Variant.none ∈ (Grouping.ofChain Operator.level first.variant
      (ops.zip (rest.map Value.variant))).operands := by
    rw [Grouping.operands_ofChain, variants, ← List.map_cons]
    exact List.mem_map_of_mem member
  refine (Grouping.variant?_of_none_mem inside).resolve_left fun whole => ?_
  -- an operator makes a second operand
  have alone := congrArg (fun g => g.operands.length) whole
  rw [Grouping.operands_ofChain, variants] at alone
  have nonempty := List.length_pos_iff.2 some
  simp only [Grouping.operands, List.length_cons, List.length_map, List.length_nil] at alone
  omega

/-- A chain is evaluated along its variants. If it has an operator, an operand without content makes it fail, with a
mismatch of operands or with a fault of arithmetic that two other values give rise to before that operand comes up. If it
has a value, the variant of that is the one to which its operators lead from the variants of its operands, so it is the
same for all operands of these variants. It fails with nothing but a mismatch of operands or a fault of arithmetic. -/
theorem fold_along_variants (first : Value) {rest : List Value} {ops : List Operator}
    (length : rest.length = ops.length) :
    (ops ≠ [] → .none ∈ first :: rest → ∃ failure, fold (first :: rest) ops = .error failure
        ∧ (failure.kind = .operandMismatch ∨ failure.kind = .arithmeticFault
          ∧ ∃ op a b, (Grouping.ofChain Operator.level first (ops.zip rest)).Combines op a b
            ∧ op.apply a b = .error failure ∧ a ≠ .none ∧ b ≠ .none))
      ∧ (∀ v, fold (first :: rest) ops = .ok v →
        (Grouping.ofChain Operator.level first.variant (ops.zip (rest.map Value.variant))).variant? = some v.variant)
      ∧ (∀ first' rest' v v', (first' :: rest').map Value.variant = (first :: rest).map Value.variant →
        fold (first :: rest) ops = .ok v → fold (first' :: rest') ops = .ok v' → v.variant = v'.variant)
      ∧ ∀ failure, fold (first :: rest) ops = .error failure →
        failure.kind = .operandMismatch ∨ failure.kind = .arithmeticFault := by
  have ofValue {first : Value} {rest : List Value} (length : rest.length = ops.length) {v : Value}
      (value : fold (first :: rest) ops = .ok v) :
      (Grouping.ofChain Operator.level first.variant (ops.zip (rest.map Value.variant))).variant? = some v.variant := by
    have typed := fold_hasVariant first length
    rwa [value] at typed
  have ofFailure {failure : Failure} (fault : fold (first :: rest) ops = .error failure) : failure.IsOfOperator := by
    have typed := fold_hasVariant first length
    rwa [fault] at typed
  refine ⟨fun some member => ?_, fun v => ofValue length, fun first' rest' v v' same value value' => ?_,
    fun failure => ofFailure⟩
  · have none := variant?_of_none_mem length some member
    cases result : fold (first :: rest) ops with
    | ok v =>
      rw [ofValue length result] at none
      cases none
    | error failure =>
      refine ⟨failure, rfl, (ofFailure result).imp_right fun fault => ⟨fault, ?_⟩⟩
      rw [fold_eq_eval length] at result
      obtain ⟨op, a, b, combines, failed⟩ := Grouping.exists_combines_of_eval result
      -- two values of which one is without content are a mismatch
      have content : ¬(a = .none ∨ b = .none) := by
        intro without
        rw [op.apply_of_none without] at failed
        cases failed
        cases fault
      exact ⟨op, a, b, combines, failed, not_or.1 content⟩
  · obtain ⟨sameFirst, sameRest⟩ := List.cons.inj same
    have length' : rest'.length = ops.length := by
      have := congrArg List.length sameRest
      simp only [List.length_map] at this
      omega
    have variant := ofValue length value
    have variant' := ofValue length' value'
    rw [sameFirst, sameRest, variant] at variant'
    exact Option.some.inj variant'

/-- A sum, in which the text is repeated first, keeps the variant of its texts; a product that overflows comes before the
operand without content. -/
theorem fold_along_variants_product :
    (fold [.str "a", .str "b", .int 2] [.add, .mul] = .ok (.str "abb")
        ∧ (Grouping.ofChain Operator.level Variant.str [(.add, .str), (.mul, .int)]).variant? = some .str)
      ∧ ∃ failure, fold [.none, .int (2 ^ (62 : Nat)), .int 2] [.add, .mul] = .error failure
        ∧ failure.kind = .arithmeticFault := by
  obtain ⟨-, typed, -⟩ := @fold_along_variants (.str "a") [.str "b", .int 2] [.add, .mul] rfl
  obtain ⟨without, -⟩ := @fold_along_variants .none [.int (2 ^ (62 : Nat)), .int 2] [.add, .mul] rfl
  have repeated : fold [.str "a", .str "b", .int 2] [.add, .mul] = .ok (.str "abb") := rfl
  have overflow : fold [.none, .int (2 ^ (62 : Nat)), .int 2] [.add, .mul]
      = .error (.integerOverflow (2 ^ (63 : Nat))) := rfl
  obtain ⟨failure, fails, -⟩ := without (by simp) (by simp)
  rw [overflow] at fails
  cases fails
  exact ⟨⟨repeated, typed _ repeated⟩, _, overflow, rfl⟩

end Chain

end NamedExpr
