import NamedExpr.Proofs.Failures
import NamedExpr.Proofs.Regrouping
/-!
# The two scales of levels

A run is grouped by reading levels when it is read, and by levels when it is evaluated. Both scales order the operators
alike, except that only the first has `&&` above `||` (`Operator.level_lt_iff`). A run is its own grouping by a scale if
every operator in it has none of a lower level on its left, and only higher ones on its right (`Expr.GroupedBy`). So a
run that was read is its own grouping by levels exactly if no `||` stands before an `&&` in it, and expressions with
such runs alone can be evaluated along their trees (`Expr.groupings_agree_of_read`).
-/

namespace NamedExpr

namespace Operator

theorem level_pos (op : Operator) : 0 < op.level := by cases op <;> decide

/-- What binds no looser in reading binds no looser in evaluation. -/
theorem level_le_of_readingLevel_le {a b : Operator} (h : a.readingLevel ≤ b.readingLevel) : a.level ≤ b.level := by
  revert h
  cases a <;> cases b <;> decide

/-- What binds tighter in evaluation is what binds tighter in reading, `&&` and `||` apart. -/
theorem level_lt_iff {a b : Operator} :
    a.level < b.level ↔ a.readingLevel < b.readingLevel ∧ ¬(a = .or ∧ b = .and) := by
  cases a <;> cases b <;> decide

end Operator

namespace Grouping

variable {α : Type} {level : Operator → Nat} {op : Operator} {before after : List (Operator × α)}

/-- A chain is cut at an operator that no operator before it is lower than, and all after it are higher than. -/
theorem splitLowest_append (noLower : ∀ p ∈ before, level op ≤ level p.1) (b : α)
    (higher : ∀ p ∈ after, level op < level p.1) :
    splitLowest level (before ++ (op, b) :: after) = some (before, op, b, after) := by
  induction before with
  | nil =>
    rw [List.nil_append, splitLowest]
    split
    · rename_i none
      rw [splitLowest_eq_none.1 none]
    · rename_i inner lowest c outer split_after
      obtain ⟨rfl, -, -⟩ := splitLowest_eq_some split_after
      have above := higher (lowest, c) (by simp)
      rw [if_neg (Nat.not_le.2 above)]
  | cons p before ih =>
    obtain ⟨first, others⟩ := List.forall_mem_cons.1 noLower
    rw [List.cons_append, splitLowest, ih others]
    exact if_pos first

theorem ofChain_nil (level : Operator → Nat) (first : α) : ofChain level first [] = .operand first := by
  rw [ofChain]
  rfl

theorem ofChain_append (noLower : ∀ p ∈ before, level op ≤ level p.1) (first b : α)
    (higher : ∀ p ∈ after, level op < level p.1) :
    ofChain level first (before ++ (op, b) :: after)
      = .binary op (ofChain level first before) (ofChain level b after) := by
  have cut := splitLowest_append noLower b higher
  rw [ofChain]
  split
  · rename_i none
    rw [cut] at none
    cases none
  · rename_i split
    rw [cut] at split
    cases split
    rfl

end Grouping

namespace Expr

/-! ## Runs that are their own grouping -/

/-- Whether a run is grouped by levels: every operator has operators of no lower level on its left, and of higher levels
on its right. -/
inductive GroupedBy (level : Operator → Nat) : Expr → Prop where
  | leaf {e : Expr} (leaf : ∀ symbol a b, e ≠ .binary symbol a b) : GroupedBy level e
  | binary {op : Operator} {a b : Expr} (left : ∀ p ∈ a.chain.2, level op ≤ level p.1)
      (right : ∀ p ∈ b.chain.2, level op < level p.1) (ofLeft : GroupedBy level a) (ofRight : GroupedBy level b) :
      GroupedBy level (.binary op.symbol a b)

variable {level : Operator → Nat} {e : Expr}

theorem GroupedBy.group_eq_self (grouped : e.GroupedBy level) : e.group level = e := by
  induction grouped with
  | leaf leaf => rw [group, chain_of_leaf leaf, Grouping.ofChain_nil, Grouping.toExpr]
  | @binary op a b left right _ _ ihLeft ihRight =>
    rw [group, chain_of_known, Grouping.ofChain_append left _ _ right, Grouping.toExpr]
    exact congrArg₂ (Expr.binary op.symbol) ihLeft ihRight

/-- No operand of a run is a run. -/
theorem leaf_of_mem_operands {p : Expr} (member : p ∈ e.operands) (symbol : String) (a b : Expr) :
    p ≠ .binary symbol a b := by
  induction e using run_induction with
  | binary symbol' left right ihLeft ihRight =>
    rw [operands_binary] at member
    obtain inLeft | inRight := List.mem_append.1 member
    · exact ihLeft inLeft
    · exact ihRight inRight
  | leaf e leaf =>
    rw [(operands_of_leaf leaf).1] at member
    rw [List.mem_singleton.1 member]
    exact leaf symbol a b

/-- The tree of the grouping of a chain has the chain as its run, and is grouped by levels. -/
theorem groupedBy_toExpr (level : Operator → Nat) {first : Expr} {chain : List (Operator × Expr)}
    (leaf : ∀ p ∈ first :: chain.map Prod.snd, ∀ symbol a b, p ≠ .binary symbol a b) :
    (Grouping.ofChain level first chain).toExpr.chain = (first, chain)
      ∧ (Grouping.ofChain level first chain).toExpr.GroupedBy level := by
  fun_induction Grouping.ofChain level first chain with
  | case1 first chain none =>
    obtain rfl := Grouping.splitLowest_eq_none.1 none
    have ofFirst := leaf first List.mem_cons_self
    exact ⟨chain_of_leaf ofFirst, .leaf ofFirst⟩
  | case2 first chain before lowest b after split left right =>
    obtain ⟨rfl, noLower, higher⟩ := Grouping.splitLowest_eq_some split
    simp only [List.map_append, List.map_cons, List.forall_mem_cons, List.forall_mem_append] at leaf left right
    obtain ⟨ofFirst, ofBefore, ofB, ofAfter⟩ := leaf
    obtain ⟨leftChain, leftGrouped⟩ := left ⟨ofFirst, ofBefore⟩
    obtain ⟨rightChain, rightGrouped⟩ := right ⟨ofB, ofAfter⟩
    constructor
    · rw [Grouping.toExpr, chain_of_known, leftChain, rightChain]
    · exact .binary (by rwa [leftChain]) (by rwa [rightChain]) leftGrouped rightGrouped

/-- A run of known operators is its own grouping if it is grouped by levels. -/
theorem group_eq_self_iff (spelled : e.isSpelled = true) : e.group level = e ↔ e.GroupedBy level := by
  constructor
  · intro same
    rw [← same]
    apply (groupedBy_toExpr level _).2
    intro p member
    rw [← operands_eq_of_isSpelled spelled] at member
    exact leaf_of_mem_operands member
  · exact GroupedBy.group_eq_self

/-! ## Runs that were read -/

/-- An operation that can be read: its operator is known, its left operand is no looser than the operator, and its right
operand is tighter. -/
theorem exists_operator_of_isReadable {symbol : String} {a b : Expr}
    (readable : (binary symbol a b).isReadable = true) :
    ∃ op : Operator, symbol = op.symbol ∧ op.readingLevel ≤ a.tightness ∧ op.readingLevel < b.tightness
      ∧ a.isReadable = true ∧ b.isReadable = true := by
  rw [isReadable_iff] at readable
  simp only [isSpelled, isGrouped, Bool.and_eq_true, decide_eq_true_eq, Option.isSome_iff_exists] at readable
  obtain ⟨⟨⟨⟨op, known⟩, spelledLeft⟩, spelledRight⟩, ⟨⟨left, right⟩, groupedLeft⟩, groupedRight⟩ := readable
  obtain rfl := Operator.ofSymbol?_eq_some_iff.1 known
  rw [tightness_of_known] at left right
  have readableLeft := isReadable_iff.2 ⟨spelledLeft, groupedLeft⟩
  have readableRight := isReadable_iff.2 ⟨spelledRight, groupedRight⟩
  exact ⟨op, rfl, left, right, readableLeft, readableRight⟩

/-- A run that was read is grouped by reading levels, and none of its operators is looser than the run. -/
theorem groupedBy_readingLevel (readable : e.isReadable = true) :
    e.GroupedBy Operator.readingLevel ∧ ∀ p ∈ e.chain.2, e.tightness ≤ p.1.readingLevel := by
  induction e using run_induction with
  | binary symbol a b ihLeft ihRight =>
    obtain ⟨op, rfl, left, right, readableLeft, readableRight⟩ := exists_operator_of_isReadable readable
    obtain ⟨groupedLeft, tightLeft⟩ := ihLeft readableLeft
    obtain ⟨groupedRight, tightRight⟩ := ihRight readableRight
    have noLower : ∀ p ∈ a.chain.2, op.readingLevel ≤ p.1.readingLevel :=
      fun p member => Nat.le_trans left (tightLeft p member)
    have higher : ∀ p ∈ b.chain.2, op.readingLevel < p.1.readingLevel :=
      fun p member => Nat.lt_of_lt_of_le right (tightRight p member)
    refine ⟨.binary noLower higher groupedLeft groupedRight, ?_⟩
    rw [tightness_of_known, chain_of_known]
    intro p member
    obtain before | rfl | after := (List.mem_append.1 member).imp_right List.mem_cons.1
    · exact noLower p before
    · exact Nat.le_refl _
    · exact Nat.le_of_lt (higher p after)
  | leaf e leaf => exact ⟨.leaf leaf, by simp [chain_of_leaf leaf]⟩

/-- The operators of a run that is grouped by levels are known. -/
theorem GroupedBy.symbols_eq (grouped : e.GroupedBy level) :
    e.symbols = (e.chain.2.map Prod.fst).map Operator.symbol := by
  induction grouped with
  | leaf leaf => rw [(operands_of_leaf leaf).2, chain_of_leaf leaf, List.map_nil, List.map_nil]
  | binary _ _ _ _ ihLeft ihRight =>
    rw [symbols_binary, chain_of_known, ihLeft, ihRight]
    simp

theorem groupedBy_binary_iff {op : Operator} {a b : Expr} :
    (binary op.symbol a b).GroupedBy level ↔ (∀ p ∈ a.chain.2, level op ≤ level p.1)
      ∧ (∀ p ∈ b.chain.2, level op < level p.1) ∧ a.GroupedBy level ∧ b.GroupedBy level := by
  constructor
  · generalize shape : binary op.symbol a b = e
    intro grouped
    cases grouped with
    | leaf leaf => exact absurd shape.symm (leaf _ _ _)
    | @binary op' _ _ left right ofLeft ofRight =>
      obtain ⟨symbols, rfl, rfl⟩ := Expr.binary.inj shape
      have same := congrArg Operator.ofSymbol? symbols
      rw [Operator.ofSymbol?_symbol, Operator.ofSymbol?_symbol] at same
      obtain rfl := Option.some.inj same
      exact ⟨left, right, ofLeft, ofRight⟩
  · rintro ⟨left, right, ofLeft, ofRight⟩
    exact .binary left right ofLeft ofRight

/-- A run that is grouped by reading levels is grouped by levels if no `||` stands before an `&&` in it. -/
theorem GroupedBy.level_iff (grouped : e.GroupedBy Operator.readingLevel) :
    e.GroupedBy Operator.level ↔ e.chain.2.Pairwise fun p q => ¬(p.1 = .or ∧ q.1 = .and) := by
  induction grouped with
  | leaf leaf => simp [chain_of_leaf leaf, GroupedBy.leaf leaf]
  | @binary op a b left right _ _ ihLeft ihRight =>
    rw [chain_of_known, List.pairwise_append, List.pairwise_cons, ← ihLeft, ← ihRight, groupedBy_binary_iff]
    constructor
    · rintro ⟨-, higher, ofLeft, ofRight⟩
      refine ⟨ofLeft, ⟨fun q member => (Operator.level_lt_iff.1 (higher q member)).2, ofRight⟩, ?_⟩
      rintro p before q member ⟨isOr, isAnd⟩
      -- only `||` has an `||` on its left, and by levels it has no `&&` on its right
      obtain rfl | after := List.mem_cons.1 member
      · obtain rfl : op = .and := isAnd
        have low := left p before
        rw [isOr] at low
        exact absurd low (by decide)
      · have above := higher q after
        rw [isAnd] at above
        exact absurd op.level_pos (Nat.not_lt.2 (Nat.le_of_lt_succ above))
    · rintro ⟨ofLeft, ⟨apart, ofRight⟩, -⟩
      refine ⟨fun p member => ?_, fun q member => ?_, ofLeft, ofRight⟩
      · exact Operator.level_le_of_readingLevel_le (left p member)
      · exact Operator.level_lt_iff.2 ⟨right q member, apart q member⟩

/-- A run that was read is grouped by levels too if no `||` stands before an `&&` in it. -/
theorem groupedBy_level_iff (readable : e.isReadable = true) :
    e.GroupedBy Operator.level ↔ ¬["||", "&&"].Sublist e.symbols := by
  have grouped := (groupedBy_readingLevel readable).1
  have pairs : (e.symbols.Pairwise fun s t => ¬(s = "||" ∧ t = "&&")) ↔ ¬["||", "&&"].Sublist e.symbols := by
    rw [List.pairwise_iff_forall_sublist]
    constructor
    · intro apart before
      exact apart before ⟨rfl, rfl⟩
    · rintro none s t before ⟨rfl, rfl⟩
      exact none before
  have isOr (op : Operator) : op.symbol = "||" ↔ op = .or := by cases op <;> decide
  have isAnd (op : Operator) : op.symbol = "&&" ↔ op = .and := by cases op <;> decide
  rw [grouped.level_iff, ← pairs, grouped.symbols_eq, List.pairwise_map, List.pairwise_map]
  simp only [isOr, isAnd]

/-! ## The expressions in an expression -/

/-- Whether an expression stands in another, other than as an operation inside of a run: an operation that does is a run
as a whole. -/
inductive Holds (t : Expr) : Expr → Prop where
  | refl : Holds t t
  | part {e p : Expr} (held : Holds t e) (member : p ∈ e.parts) : Holds t p
  | receiver {e : Expr} {name : String} (held : Holds t (.field e name)) : Holds t e

theorem Holds.of_part {t p e : Expr} (member : p ∈ t.parts) (held : p.Holds e) : t.Holds e := by
  induction held with
  | refl => exact .part .refl member
  | part _ inside ih => exact .part ih inside
  | receiver _ ih => exact .receiver ih

/-- An expression that stands in another is the whole, or stands in a part of it or in the receiver of a field. -/
theorem Holds.eq_or_inside {t : Expr} (held : t.Holds e) :
    e = t ∨ (∃ p ∈ t.parts, p.Holds e) ∨ ∃ receiver name, t = .field receiver name ∧ receiver.Holds e := by
  induction held with
  | refl => exact .inl rfl
  | part _ member ih =>
    obtain rfl | ⟨p, inside, held⟩ | ⟨receiver, name, shape, held⟩ := ih
    · exact .inr (.inl ⟨_, member, .refl⟩)
    · exact .inr (.inl ⟨p, inside, .part held member⟩)
    · exact .inr (.inr ⟨receiver, name, shape, .part held member⟩)
  | @receiver _ name' _ ih =>
    obtain whole | ⟨p, inside, held⟩ | ⟨receiver, name, shape, held⟩ := ih
    · exact .inr (.inr ⟨_, name', whole.symm, .refl⟩)
    · exact .inr (.inl ⟨p, inside, .receiver held⟩)
    · exact .inr (.inr ⟨receiver, name, shape, .receiver held⟩)

/-- The parts of an expression that can be read can be read. -/
theorem isReadable_of_mem_parts {p : Expr} (readable : e.isReadable = true) (member : p ∈ e.parts) :
    p.isReadable = true := by
  refine isReadable_iff.2 ⟨isSpelled_of_mem_parts (isReadable_iff.1 readable).1 member, ?_⟩
  have grouped := (isReadable_iff.1 readable).2
  cases e with
  | literal | path | field | foreign => cases member
  | unary symbol e | reference e =>
    simp only [isGrouped, Bool.and_eq_true] at grouped
    rw [List.mem_singleton.1 member]
    exact grouped.2
  | paren e =>
    rw [List.mem_singleton.1 member]
    exact grouped
  | binary symbol a b =>
    obtain ⟨op, rfl, -⟩ := exists_operator_of_isReadable readable
    have tight : 0 < (binary op.symbol a b).tightness := by
      rw [tightness_of_known]
      exact op.readingLevel_bounds.1
    exact (isReadable_iff.1 (operands_of_isReadable readable tight p member).1).2
  | methodCall e method args =>
    simp only [isGrouped, Bool.and_eq_true] at grouped
    obtain rfl | argument := List.mem_cons.1 member
    · exact grouped.1.2
    · exact isGroupedAll_iff.1 grouped.2 p argument
  | call function args | array args => exact isGroupedAll_iff.1 grouped p member
  | index a b | range a b inclusive =>
    simp only [isGrouped, Bool.and_eq_true] at grouped
    obtain rfl | second := List.mem_cons.1 member
    · exact grouped.1.2
    · rw [List.mem_singleton.1 second]
      exact grouped.2

/-- Whatever stands in an expression that can be read can be read. -/
theorem Holds.isReadable {t : Expr} (held : t.Holds e) (readable : t.isReadable = true) : e.isReadable = true := by
  induction held with
  | refl => exact readable
  | part _ member ih => exact isReadable_of_mem_parts ih member
  | receiver _ ih =>
    rw [isReadable_iff] at ih ⊢
    simp only [isSpelled, isGrouped, Bool.and_eq_true] at ih
    exact ⟨ih.1.1, ih.2.2⟩

/-! ## Applying operators along the tree -/

/-- The value of a run whose operands have the values at the front of the row: each operator is applied where it
stands in the tree, to the value of its left side and then that of its right side. Also the values that are left over.
-/
def applyNodes : Expr → List Value → Except Failure (Value × List Value)
  | .binary symbol a b, vs => do
    let left ← applyNodes a vs
    let right ← applyNodes b left.2
    let op ← Operator.ofSymbol symbol
    let value ← op.apply left.1 right.1
    .ok (value, right.2)
  | _, v :: vs => .ok (v, vs)
  | _, [] => .error .malformedChain

theorem applyNodes_of_leaf (leaf : ∀ symbol a b, e ≠ .binary symbol a b) (v : Value) (vs : List Value) :
    e.applyNodes (v :: vs) = .ok (v, vs) := by
  cases e with
  | binary symbol a b => exact absurd rfl (leaf symbol a b)
  | _ => rfl

theorem forall_mem_of_map_fst {α β : Type} (holds : Operator → Prop) {chain : List (Operator × α)}
    {chain' : List (Operator × β)} (same : chain.map Prod.fst = chain'.map Prod.fst) (h : ∀ p ∈ chain', holds p.1) :
    ∀ p ∈ chain, holds p.1 := by
  intro p member
  have inside : p.1 ∈ chain'.map Prod.fst := same ▸ List.mem_map_of_mem member
  obtain ⟨q, member', eq⟩ := List.mem_map.1 inside
  rw [← eq]
  exact h q member'

/-- Along the tree of a run that is grouped by levels, the values of its operands are combined as they are in the
grouping of their chain. -/
theorem GroupedBy.applyNodes_eq (grouped : e.GroupedBy Operator.level) (first : Value)
    {others : List (Operator × Value)} (same : others.map Prod.fst = e.chain.2.map Prod.fst) (rest : List Value) :
    e.applyNodes (first :: (others.map Prod.snd ++ rest))
      = (Grouping.ofChain Operator.level first others).eval.map fun v => (v, rest) := by
  induction grouped generalizing first others rest with
  | leaf leaf =>
    rw [chain_of_leaf leaf, List.map_nil, List.map_eq_nil_iff] at same
    subst same
    rw [List.map_nil, List.nil_append, applyNodes_of_leaf leaf, Grouping.ofChain_nil, Grouping.eval]
    rfl
  | @binary op a b left right _ _ ihLeft ihRight =>
    -- the row of values is cut where the operator stands in the chain, which is where the grouping is cut too
    rw [chain_of_known, List.map_append, List.map_cons, List.map_eq_append_iff] at same
    obtain ⟨before, tail, rfl, sameLeft, sameTail⟩ := same
    obtain ⟨⟨op', second⟩, after, rfl, sameOp, sameRight⟩ := List.map_eq_cons_iff.1 sameTail
    obtain rfl : op' = op := sameOp
    have noLower : ∀ p ∈ before, op'.level ≤ p.1.level :=
      forall_mem_of_map_fst (op'.level ≤ Operator.level ·) sameLeft left
    have higher : ∀ p ∈ after, op'.level < p.1.level :=
      forall_mem_of_map_fst (op'.level < Operator.level ·) sameRight right
    have row : (before ++ (op', second) :: after).map Prod.snd ++ rest
        = before.map Prod.snd ++ second :: (after.map Prod.snd ++ rest) := by simp
    rw [Grouping.ofChain_append noLower _ _ higher, Grouping.eval, applyNodes, row, ihLeft first sameLeft]
    cases (Grouping.ofChain Operator.level first before).eval with
    | error failure => rfl
    | ok x =>
      show (do
        let right ← b.applyNodes (second :: (after.map Prod.snd ++ rest))
        let op ← Operator.ofSymbol op'.symbol
        let value ← op.apply x right.1
        .ok (value, right.2)) = _
      rw [ihRight second sameRight, Operator.ofSymbol, Operator.ofSymbol?_symbol]
      cases (Grouping.ofChain Operator.level second after).eval with
      | error failure => rfl
      | ok y =>
        show (op'.apply x y >>= fun value => .ok (value, rest)) = (op'.apply x y).map fun v => (v, rest)
        cases op'.apply x y <;> rfl

/-- Where the operands of a run have values, the operators of a run that is grouped by levels are applied along its
tree as they are in evaluation. -/
theorem GroupedBy.fold_eq (grouped : e.GroupedBy Operator.level) {vs : List Value}
    (length : vs.length = e.chain.2.length + 1) :
    (e.applyNodes vs).map Prod.fst = Chain.fold vs (e.chain.2.map Prod.fst) := by
  cases vs with
  | nil => simp at length
  | cons first others =>
    have counted : others.length = (e.chain.2.map Prod.fst).length := by simpa using length
    have zipped := grouped.applyNodes_eq first
      (List.map_fst_zip (Nat.le_of_eq counted.symm)) []
    rw [List.map_snd_zip (Nat.le_of_eq counted), List.append_nil] at zipped
    rw [zipped, Chain.fold_eq_eval counted]
    cases (Grouping.ofChain Operator.level first ((e.chain.2.map Prod.fst).zip others)).eval <;> rfl

end Expr

namespace Evaluation

/-- Evaluates an expression in which at most `budget` expressions stand in one another, while the names in `resolving`
are being resolved. The operands of a run come first, from the left; then each of its operators is applied where it
stands in the tree. Names are evaluated as ever. -/
def nodewise (scope : Scope) (resolving : List String) : Nat → Expr → Outcome
  | 0, _ => .error .nestingExhausted
  | budget + 1, .binary symbol a b => do
    let run := Expr.binary symbol a b
    let operands ← values (nodewise scope resolving budget) run.operands
    plain ((run.applyNodes operands).map Prod.fst)
  | budget + 1, e => step (nodewise scope resolving budget) scope (name scope (outcome scope) resolving) e

theorem length_of_values {go : Expr → Outcome} {es : List Expr} {vs : List Value} (h : values go es = .ok vs) :
    vs.length = es.length := by
  induction es generalizing vs with
  | nil =>
    cases h
    rfl
  | cons e es ih =>
    rw [values] at h
    cases first : go e with
    | error failure =>
      rw [first] at h
      cases h
    | ok r =>
      cases others : values go es with
      | error failure =>
        rw [first, others] at h
        cases h
      | ok rest =>
        rw [first, others] at h
        cases h
        exact congrArg (· + 1) (ih others)

/-- Of a run that is grouped by levels, evaluation gives what applying its operators along its tree gives. -/
theorem step_run {scope : Scope} {go : Expr → Outcome} {enter : String → Outcome} {symbol : String} {a b : Expr}
    (grouped : (Expr.binary symbol a b).GroupedBy Operator.level) :
    step go scope enter (.binary symbol a b) = values go (Expr.binary symbol a b).operands >>= fun operands =>
      plain (((Expr.binary symbol a b).applyNodes operands).map Prod.fst) := by
  simp only [step]
  rw [grouped.symbols_eq, operators_map_symbol]
  cases result : values go (Expr.binary symbol a b).operands with
  | error failure => rfl
  | ok vs =>
    have length : vs.length = (Expr.binary symbol a b).chain.2.length + 1 := by
      rw [length_of_values result, Expr.length_operands, grouped.symbols_eq, List.length_map, List.length_map]
    exact congrArg plain (grouped.fold_eq length).symm

/-- An expression that can be read, and in whose runs no `||` stands before an `&&`, is evaluated along its tree as it
is evaluated. -/
theorem nodewise_eq_outcome (scope : Scope) (resolving : List String) {budget : Nat} {e : Expr}
    (enough : e.height ≤ budget) (readable : e.isReadable = true)
    (apart : ∀ p, e.Holds p → ¬["||", "&&"].Sublist p.symbols) :
    nodewise scope resolving budget e = outcome scope resolving e := by
  induction budget generalizing e with
  | zero => exact absurd e.height_pos (Nat.not_lt.2 enough)
  | succ budget ih =>
    have ofParts : ∀ p ∈ e.parts, nodewise scope resolving budget p = outcome scope resolving p := by
      intro p member
      have low := Expr.height_of_mem_parts member
      apply ih (by omega) (Expr.isReadable_of_mem_parts readable member)
      intro q held
      exact apart q (.of_part member held)
    have steps : Refines (fun _ => False)
        (step (nodewise scope resolving budget) scope (name scope (outcome scope) resolving) e)
        (step (outcome scope resolving) scope (name scope (outcome scope) resolving) e) :=
      step_along (Refines.along _) (fun segments _ => .refl _) fun p member => .inl (ofParts p member)
    rw [outcome_eq_step, ← steps.eq]
    cases e with
    | binary symbol a b => exact (step_run ((Expr.groupedBy_level_iff readable).2 (apart _ .refl))).symm
    | _ => rfl

end Evaluation

/-- Reading and evaluation agree on the grouping of the runs of a text exactly where they should. In every run in an
expression that was read, putting the rightmost operator of the lowest level on top, and so on with what stands before
and after it, gives back the tree if and only if no `||` stands before an `&&`. Where that is so in all runs, applying
the operators of each run where they stand in the tree, after its operands were evaluated from the left, gives the
value of the expression. -/
theorem Expr.groupings_agree_of_read {text : String} {t : Expr} (read : Expr.read text = .ok t) :
    (∀ e, t.Holds e → (e.group Operator.level = e ↔ ¬["||", "&&"].Sublist e.symbols))
      ∧ ((∀ e, t.Holds e → ¬["||", "&&"].Sublist e.symbols) → ∀ scope : Scope,
        scope.evaluate t = (Evaluation.nodewise scope [] t.height t).map Resolved.value) := by
  have readable := isReadable_of_read read
  constructor
  · intro e held
    have ofRun := held.isReadable readable
    rw [group_eq_self_iff (isReadable_iff.1 ofRun).1, groupedBy_level_iff ofRun]
  · intro apart scope
    rw [Evaluation.evaluate_eq_outcome,
      Evaluation.nodewise_eq_outcome scope [] (Nat.le_refl _) readable apart]

/-- With `&&` before `||`, both groupings are one; with `||` before `&&`, the tree is another, and so is the value along
it. -/
theorem Expr.groupings_agree_of_read_conditions :
    let alike := Expr.binary "||" (.binary "&&" (.path ["a"]) (.path ["b"])) (.path ["c"])
    let no := Expr.literal (.bool false)
    let other := Expr.binary "||" (.literal (.bool true)) (.binary "&&" no no)
    Expr.read "a && b || c" = .ok alike ∧ alike.group Operator.level = alike
      ∧ (∀ scope : Scope, scope.evaluate alike = (Evaluation.nodewise scope [] alike.height alike).map Resolved.value)
      ∧ Expr.read "true || false && false" = .ok other ∧ other.group Operator.level ≠ other
      ∧ (⟨.empty, 64⟩ : Scope).evaluate other = .ok (.bool false)
      ∧ Evaluation.nodewise ⟨.empty, 64⟩ [] other.height other = .ok ⟨.bool true, false⟩ := by
  intro alike no other
  have readAlike : Expr.read "a && b || c" = .ok alike := by rfl
  have readOther : Expr.read "true || false && false" = .ok other := by rfl
  obtain ⟨grouping, evaluation⟩ := Expr.groupings_agree_of_read readAlike
  obtain ⟨groupingOther, -⟩ := Expr.groupings_agree_of_read readOther
  have apart : ∀ e, alike.Holds e → ¬["||", "&&"].Sublist e.symbols := by
    intro e held
    obtain rfl | ⟨p, member, held⟩ | ⟨receiver, name, shape, -⟩ := held.eq_or_inside
    · decide
    · have operand : ∃ name, p = .path [name] := by
        simp only [alike, Expr.parts, Expr.operands, Expr.operandsBefore, List.mem_cons, List.not_mem_nil, or_false]
          at member
        obtain rfl | rfl | rfl := member <;> exact ⟨_, rfl⟩
      obtain ⟨name, rfl⟩ := operand
      obtain rfl | ⟨_, none, -⟩ | ⟨_, _, shape, -⟩ := held.eq_or_inside
      · simp [Expr.symbols, Expr.symbolsBefore]
      · cases none
      · cases shape
    · simp only [alike, reduceCtorEq] at shape
  refine ⟨readAlike, (grouping alike .refl).2 (apart alike .refl), evaluation apart, readOther, ?_, by rfl, by rfl⟩
  intro same
  exact (groupingOther other .refl).1 same (by decide)

end NamedExpr
