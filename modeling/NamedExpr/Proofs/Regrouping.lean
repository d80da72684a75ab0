import NamedExpr.Proofs.Chains
import NamedExpr.Proofs.RoundTrip
/-!
# Regrouping runs

The text of an expression does not say how the operators of a run are grouped in the tree, so reading it groups them
by their reading levels (`Expr.regroup`). That changes neither the operands and operators of any run nor their order:
whatever is put together from those in order stays as it is (`Expr.inOrder_group`), the text of the expression and
what evaluation takes from a run among it. So the text of an expression whose runs are grouped in any way is read as
one that evaluates alike (`Expr.read_write_evaluates`).
-/

namespace NamedExpr

/-- The tree of a grouping. -/
def Grouping.toExpr : Grouping Expr → Expr
  | .operand e => e
  | .binary op left right => .binary op.symbol left.toExpr right.toExpr

namespace Expr

/-! ## Regrouping -/

/-- The run of an expression as a chain: its first operand, and the others with the operators before them. An operation
whose operator is unknown counts as an operand. -/
def chain : Expr → Expr × List (Operator × Expr)
  | .binary symbol a b =>
    match Operator.ofSymbol? symbol with
    | some op => ((chain a).1, (chain a).2 ++ (op, (chain b).1) :: (chain b).2)
    | none => (.binary symbol a b, [])
  | e => (e, [])

/-- An expression with its run grouped by levels. -/
def group (level : Operator → Nat) (e : Expr) : Expr := (Grouping.ofChain level e.chain.1 e.chain.2).toExpr

mutual

/-- An expression with every run in it grouped by the levels of reading. -/
def regroup : Expr → Expr
  | .binary symbol a b => group Operator.readingLevel (.binary symbol (regroup a) (regroup b))
  | .unary symbol e => .unary symbol (regroup e)
  | .reference e => .reference (regroup e)
  | .paren e => .paren (regroup e)
  | .methodCall e method args => .methodCall (regroup e) method (regroupAll args)
  | .call function args => .call function (regroupAll args)
  | .field e name => .field (regroup e) name
  | .array es => .array (regroupAll es)
  | .index a b => .index (regroup a) (regroup b)
  | .range a b inclusive => .range (regroup a) (regroup b) inclusive
  | .literal value => .literal value
  | .path segments => .path segments
  | .foreign shown => .foreign shown

/-- A row of expressions with every run in them grouped by the levels of reading. -/
def regroupAll : List Expr → List Expr
  | [] => []
  | e :: es => regroup e :: regroupAll es

end

mutual

/-- Whether regrouping the runs in an expression is enough to have it grouped by tightness: whatever is no binary
operation holds together tightly enough, and no operand of one is a range. -/
def isGroupable : Expr → Bool
  | .literal _ | .path _ | .foreign _ => true
  | .unary _ e | .reference e => decide (6 ≤ e.tightness) && isGroupable e
  | .binary _ a b => decide (0 < a.tightness) && decide (0 < b.tightness) && isGroupable a && isGroupable b
  | .methodCall e _ args => decide (7 ≤ e.tightness) && isGroupable e && isGroupableAll args
  | .call _ args | .array args => isGroupableAll args
  | .field e _ => decide (7 ≤ e.tightness) && isGroupable e
  | .index a b => decide (7 ≤ a.tightness) && isGroupable a && isGroupable b
  | .range a b _ => decide (0 < a.tightness) && decide (0 < b.tightness) && isGroupable a && isGroupable b
  | .paren e => isGroupable e

/-- Whether regrouping the runs in every expression of a row is enough. -/
def isGroupableAll : List Expr → Bool
  | [] => true
  | e :: rest => isGroupable e && isGroupableAll rest

end

theorem chain_of_leaf {e : Expr} (leaf : ∀ symbol a b, e ≠ .binary symbol a b) : e.chain = (e, []) := by
  cases e with
  | binary symbol a b => exact absurd rfl (leaf symbol a b)
  | _ => rfl

theorem chain_of_known (op : Operator) (a b : Expr) :
    (binary op.symbol a b).chain = (a.chain.1, a.chain.2 ++ (op, b.chain.1) :: b.chain.2) := by
  rw [chain, Operator.ofSymbol?_symbol]

theorem chain_of_unknown {symbol : String} (unknown : Operator.ofSymbol? symbol = none) (a b : Expr) :
    (binary symbol a b).chain = (binary symbol a b, []) := by
  rw [chain, unknown]

theorem regroupAll_eq_map (es : List Expr) : regroupAll es = es.map regroup := by
  induction es with
  | nil => rfl
  | cons e es ih => rw [regroupAll, ih, List.map_cons]

/-- Regrouping makes a run of a run, and nothing else. -/
theorem regroup_ne_binary {e : Expr} (leaf : ∀ symbol a b, e ≠ .binary symbol a b) (symbol : String) (a b : Expr) :
    e.regroup ≠ .binary symbol a b := by
  cases e with
  | binary symbol a b => exact absurd rfl (leaf symbol a b)
  | _ => simp [regroup]

/-! ## What stays as it is -/

section

variable {α : Type} {f : Expr → List α} {g : String → List α}
  (inOrder : ∀ symbol a b, f (.binary symbol a b) = f a ++ g symbol ++ f b)

include inOrder

theorem inOrder_chain (e : Expr) : f e = f e.chain.1 ++ e.chain.2.flatMap fun p => g p.1.symbol ++ f p.2 := by
  induction e using run_induction with
  | binary symbol a b ihLeft ihRight =>
    cases known : Operator.ofSymbol? symbol with
    | none => simp [chain_of_unknown known]
    | some op =>
      obtain rfl := Operator.ofSymbol?_eq_some_iff.1 known
      rw [chain_of_known, inOrder, ihLeft, ihRight]
      simp
  | leaf e leaf => simp [chain_of_leaf leaf]

theorem inOrder_toExpr (level : Operator → Nat) (first : Expr) (chain : List (Operator × Expr)) :
    f (Grouping.ofChain level first chain).toExpr = f first ++ chain.flatMap fun p => g p.1.symbol ++ f p.2 := by
  fun_induction Grouping.ofChain level first chain with
  | case1 first chain none =>
    obtain rfl := Grouping.splitLowest_eq_none.1 none
    simp [Grouping.toExpr]
  | case2 first chain before lowest b after split left right =>
    obtain ⟨rfl, -, -⟩ := Grouping.splitLowest_eq_some split
    rw [Grouping.toExpr, inOrder, left, right]
    simp

/-- Whatever is put together from the operands and the operators of a run, in order, is the same for every grouping. -/
theorem inOrder_group (level : Operator → Nat) (e : Expr) : f (e.group level) = f e := by
  rw [group, inOrder_toExpr inOrder, ← inOrder_chain inOrder]

end

theorem operands_group (level : Operator → Nat) (e : Expr) : (e.group level).operands = e.operands :=
  inOrder_group (f := operands) (g := fun _ => []) (by simp) level e

theorem symbols_group (level : Operator → Nat) (e : Expr) : (e.group level).symbols = e.symbols :=
  inOrder_group (f := symbols) (g := fun symbol => [symbol]) (by simp) level e

theorem write_group (level : Operator → Nat) (e : Expr) : (e.group level).write = e.write := by
  apply String.toList_injective
  apply inOrder_group (f := fun e => e.write.toList) (g := fun symbol => (" " ++ symbol ++ " ").toList)
  simp [write]

/-- A run keeps its operators, and its operands are regrouped one by one. -/
theorem run_regroup (e : Expr) : e.regroup.operands = e.operands.map regroup ∧ e.regroup.symbols = e.symbols := by
  induction e using run_induction with
  | binary symbol a b ihLeft ihRight =>
    rw [regroup, operands_group, symbols_group, operands_binary, operands_binary, symbols_binary, symbols_binary,
      List.map_append]
    exact ⟨by rw [ihLeft.1, ihRight.1], by rw [ihLeft.2, ihRight.2]⟩
  | leaf e leaf =>
    obtain ⟨only, none⟩ := operands_of_leaf leaf
    obtain ⟨only', none'⟩ := operands_of_leaf (regroup_ne_binary leaf)
    exact ⟨by rw [only, only', List.map_singleton], by rw [none, none']⟩

mutual

/-- Regrouping does not show in the text. -/
theorem write_regroup : (e : Expr) → e.regroup.write = e.write
  | .literal _ | .path _ | .foreign _ => rfl
  | .binary symbol a b => by rw [regroup, write_group, write, write, write_regroup a, write_regroup b]
  | .unary _ e | .paren e | .field e _ => by rw [regroup, write, write, write_regroup e]
  | .reference e => by
    simp only [regroup, write]
    rw [write_regroup e]
  | .methodCall e _ args => by rw [regroup, write, write, write_regroup e, writeAll_regroupAll args]
  | .call _ args | .array args => by rw [regroup, write, write, writeAll_regroupAll args]
  | .index a b | .range a b _ => by rw [regroup, write, write, write_regroup a, write_regroup b]

theorem writeAll_regroupAll : (es : List Expr) → writeAll (regroupAll es) = writeAll es
  | [] => rfl
  | [e] => write_regroup e
  | e :: e' :: es => by
    have others := writeAll_regroupAll (e' :: es)
    show e.regroup.write ++ ", " ++ writeAll (regroupAll (e' :: es)) = e.write ++ ", " ++ writeAll (e' :: es)
    rw [write_regroup e, others]

end

/-! ## Regrouping by tightness -/

theorem tightness_of_known (op : Operator) (a b : Expr) : (binary op.symbol a b).tightness = op.readingLevel := by
  simp [tightness]

/-- A binary operation is looser than a prefix operation. -/
theorem leaf_of_tight {e : Expr} (tight : 6 ≤ e.tightness) (symbol : String) (a b : Expr) : e ≠ .binary symbol a b := by
  rintro rfl
  cases known : Operator.ofSymbol? symbol with
  | none => simp [tightness, known] at tight
  | some op =>
    have := op.readingLevel_bounds
    simp [tightness, known] at tight
    omega

/-- Whether an expression can be read as an operand of a run: it is a prefix operation or tighter. -/
def IsRunOperand (e : Expr) : Prop := e.isReadable = true ∧ 6 ≤ e.tightness

/-- The operands of an expression that can be read can be read, and none of them is a range if the whole is none. -/
theorem operands_of_isReadable {e : Expr} (readable : e.isReadable = true) (tight : 0 < e.tightness) :
    ∀ p ∈ e.operands, p.IsRunOperand := by
  induction e using run_induction with
  | binary symbol a b ihLeft ihRight =>
    rw [isReadable_iff] at readable
    simp only [isSpelled, isGrouped, Bool.and_eq_true, decide_eq_true_eq] at readable
    obtain ⟨⟨⟨-, spelledLeft⟩, spelledRight⟩, ⟨⟨left, right⟩, groupedLeft⟩, groupedRight⟩ := readable
    intro p member
    rw [operands_binary] at member
    obtain inLeft | inRight := List.mem_append.1 member
    · exact ihLeft (isReadable_iff.2 ⟨spelledLeft, groupedLeft⟩) (by omega) p inLeft
    · exact ihRight (isReadable_iff.2 ⟨spelledRight, groupedRight⟩) (by omega) p inRight
  | leaf e leaf =>
    rw [(operands_of_leaf leaf).1]
    intro p member
    obtain rfl := List.mem_singleton.1 member
    refine ⟨readable, ?_⟩
    cases p with
    | binary symbol a b => exact absurd rfl (leaf symbol a b)
    | range => simp [tightness] at tight
    | _ => simp [tightness]

/-- A chain of operands that can be read is grouped into what can be read, which is as tight as its operators. -/
theorem isReadable_toExpr {first : Expr} {chain : List (Operator × Expr)} (ofFirst : first.IsRunOperand)
    (others : ∀ p ∈ chain, p.2.IsRunOperand) :
    (Grouping.ofChain Operator.readingLevel first chain).toExpr.isReadable = true
      ∧ ∀ least ≤ 6, (∀ p ∈ chain, least ≤ p.1.readingLevel) →
        least ≤ (Grouping.ofChain Operator.readingLevel first chain).toExpr.tightness := by
  fun_induction Grouping.ofChain Operator.readingLevel first chain with
  | case1 first chain none =>
    exact ⟨ofFirst.1, fun least low _ => Nat.le_trans low ofFirst.2⟩
  | case2 first chain before lowest b after split left right =>
    obtain ⟨rfl, noLower, higher⟩ := Grouping.splitLowest_eq_some split
    simp only [List.forall_mem_append, List.forall_mem_cons] at others ⊢
    obtain ⟨ofBefore, ofB, ofAfter⟩ := others
    have bounds := lowest.readingLevel_bounds
    obtain ⟨leftReadable, leftTight⟩ := left ofFirst ofBefore
    obtain ⟨rightReadable, rightTight⟩ := right ofB ofAfter
    constructor
    · have valid : (Pending.binary lowest (Grouping.ofChain Operator.readingLevel first before).toExpr).Valid :=
        ⟨leftReadable, leftTight _ (by omega) noLower⟩
      exact Pending.isReadable_complete valid rightReadable (rightTight (lowest.readingLevel + 1) (by omega) higher)
    · intro least _ below
      rw [Grouping.toExpr, tightness_of_known]
      exact below.2.1

/-- The operands of a run whose operators are known are those of its chain. -/
theorem operands_eq_of_isSpelled {e : Expr} (spelled : e.isSpelled = true) :
    e.operands = e.chain.1 :: e.chain.2.map Prod.snd := by
  induction e using run_induction with
  | binary symbol a b ihLeft ihRight =>
    simp only [isSpelled, Bool.and_eq_true, Option.isSome_iff_exists] at spelled
    obtain ⟨⟨⟨op, known⟩, spelledLeft⟩, spelledRight⟩ := spelled
    obtain rfl := Operator.ofSymbol?_eq_some_iff.1 known
    rw [operands_binary, chain_of_known, ihLeft spelledLeft, ihRight spelledRight]
    simp
  | leaf e leaf => rw [(operands_of_leaf leaf).1, chain_of_leaf leaf, List.map_nil]

/-- Grouping a run by the levels of reading makes an expression that can be read. -/
theorem isReadable_group {e : Expr} (spelled : e.isSpelled = true) (operands : ∀ p ∈ e.operands, p.IsRunOperand) :
    (e.group Operator.readingLevel).isReadable = true ∧ 0 < (e.group Operator.readingLevel).tightness := by
  rw [operands_eq_of_isSpelled spelled, List.forall_mem_cons, List.forall_mem_map] at operands
  obtain ⟨readable, tight⟩ := isReadable_toExpr operands.1 operands.2
  exact ⟨readable, tight 1 (by decide) fun p _ => p.1.readingLevel_bounds.1⟩

/-- Whatever is no run stays as tight as it is. -/
theorem tightness_regroup {e : Expr} (tight : 6 ≤ e.tightness) : e.regroup.tightness = e.tightness := by
  have leaf := leaf_of_tight tight
  cases e with
  | binary symbol a b => exact absurd rfl (leaf symbol a b)
  | _ => rfl

mutual

/-- Regrouping is enough: it makes an expression that can be read, and no range of what is none. -/
theorem isReadable_regroup : (e : Expr) → e.isSpelled = true → e.isGroupable = true →
    e.regroup.isReadable = true ∧ (0 < e.tightness → 0 < e.regroup.tightness)
  | .literal value, spelled, _ => ⟨isReadable_iff.2 ⟨spelled, rfl⟩, id⟩
  | .path segments, spelled, _ => ⟨isReadable_iff.2 ⟨spelled, rfl⟩, id⟩
  | .binary symbol a b, spelled, groupable => by
    simp only [isSpelled, isGroupable, Bool.and_eq_true, decide_eq_true_eq] at spelled groupable
    obtain ⟨⟨⟨leftTight, rightTight⟩, groupableLeft⟩, groupableRight⟩ := groupable
    obtain ⟨leftReadable, left⟩ := isReadable_regroup a spelled.1.2 groupableLeft
    obtain ⟨rightReadable, right⟩ := isReadable_regroup b spelled.2 groupableRight
    have regrouped : (binary symbol a.regroup b.regroup).isSpelled = true := by
      simp [isSpelled, spelled.1.1, (isReadable_iff.1 leftReadable).1, (isReadable_iff.1 rightReadable).1]
    have operands : ∀ p ∈ (binary symbol a.regroup b.regroup).operands, p.IsRunOperand := by
      rw [operands_binary, List.forall_mem_append]
      exact ⟨operands_of_isReadable leftReadable (left leftTight),
        operands_of_isReadable rightReadable (right rightTight)⟩
    obtain ⟨readable, tight⟩ := isReadable_group regrouped operands
    exact ⟨readable, fun _ => tight⟩
  | .unary symbol e, spelled, groupable => by
    simp only [isSpelled, isGroupable, Bool.and_eq_true, decide_eq_true_eq] at spelled groupable
    have inner := isReadable_iff.1 (isReadable_regroup e spelled.2 groupable.2).1
    refine ⟨isReadable_iff.2 ?_, id⟩
    simp [regroup, isSpelled, isGrouped, spelled.1, inner, tightness_regroup groupable.1, groupable.1]
  | .reference e, spelled, groupable => by
    simp only [isGroupable, Bool.and_eq_true, decide_eq_true_eq] at groupable
    have inner := isReadable_iff.1 (isReadable_regroup e spelled groupable.2).1
    refine ⟨isReadable_iff.2 ?_, id⟩
    simp [regroup, isSpelled, isGrouped, inner, tightness_regroup groupable.1, groupable.1]
  | .paren e, spelled, groupable => ⟨(isReadable_regroup e spelled groupable).1, id⟩
  | .methodCall e method args, spelled, groupable => by
    simp only [isSpelled, isGroupable, Bool.and_eq_true, decide_eq_true_eq] at spelled groupable
    obtain ⟨⟨tight, groupableReceiver⟩, groupableArgs⟩ := groupable
    have inner := isReadable_iff.1 (isReadable_regroup e spelled.1.1 groupableReceiver).1
    have row := isReadableAll_regroupAll args spelled.2 groupableArgs
    refine ⟨isReadable_iff.2 ?_, id⟩
    simp [regroup, isSpelled, isGrouped, spelled.1.2, inner, row, tightness_regroup (Nat.le_of_succ_le tight), tight]
  | .call function args, spelled, groupable => by
    simp only [isSpelled, Bool.and_eq_true] at spelled
    have row := isReadableAll_regroupAll args spelled.2 groupable
    refine ⟨isReadable_iff.2 ?_, id⟩
    simp [regroup, isSpelled, isGrouped, spelled.1, row]
  | .array es, spelled, groupable => by
    have row := isReadableAll_regroupAll es spelled groupable
    exact ⟨isReadable_iff.2 row, id⟩
  | .field e name, spelled, groupable => by
    simp only [isSpelled, isGroupable, Bool.and_eq_true, decide_eq_true_eq] at spelled groupable
    have inner := isReadable_iff.1 (isReadable_regroup e spelled.1 groupable.2).1
    refine ⟨isReadable_iff.2 ?_, id⟩
    simp [regroup, isSpelled, isGrouped, spelled.2, inner, tightness_regroup (Nat.le_of_succ_le groupable.1),
      groupable.1]
  | .index a b, spelled, groupable => by
    simp only [isSpelled, isGroupable, Bool.and_eq_true, decide_eq_true_eq] at spelled groupable
    obtain ⟨⟨tight, groupableTarget⟩, groupablePlace⟩ := groupable
    have target := isReadable_iff.1 (isReadable_regroup a spelled.1 groupableTarget).1
    have place := isReadable_iff.1 (isReadable_regroup b spelled.2 groupablePlace).1
    refine ⟨isReadable_iff.2 ?_, id⟩
    simp [regroup, isSpelled, isGrouped, target, place, tightness_regroup (Nat.le_of_succ_le tight), tight]
  | .range a b _, spelled, groupable => by
    simp only [isSpelled, isGroupable, Bool.and_eq_true, decide_eq_true_eq] at spelled groupable
    obtain ⟨⟨⟨startTight, stopTight⟩, groupableStart⟩, groupableStop⟩ := groupable
    obtain ⟨startReadable, start⟩ := isReadable_regroup a spelled.1 groupableStart
    obtain ⟨stopReadable, stop⟩ := isReadable_regroup b spelled.2 groupableStop
    refine ⟨isReadable_iff.2 ?_, id⟩
    simp [regroup, isSpelled, isGrouped, isReadable_iff.1 startReadable, isReadable_iff.1 stopReadable,
      start startTight, stop stopTight]

theorem isReadableAll_regroupAll : (es : List Expr) → isSpelledAll es = true → isGroupableAll es = true →
    isSpelledAll (regroupAll es) = true ∧ isGroupedAll (regroupAll es) = true
  | [], _, _ => ⟨rfl, rfl⟩
  | e :: es, spelled, groupable => by
    rw [isSpelledAll, Bool.and_eq_true] at spelled
    rw [isGroupableAll, Bool.and_eq_true] at groupable
    have first := isReadable_iff.1 (isReadable_regroup e spelled.1 groupable.1).1
    have others := isReadableAll_regroupAll es spelled.2 groupable.2
    simp [regroupAll, isSpelledAll, isGroupedAll, first, others]

end

/-- The text of an expression is read as the expression with its runs regrouped. -/
theorem read_write_regroup {e : Expr} (spelled : e.isSpelled = true) (groupable : e.isGroupable = true) :
    Expr.read e.write = .ok e.regroup := by
  rw [← write_regroup e]
  exact read_write (isReadable_regroup e spelled groupable).1

/-! ## Evaluating what is regrouped -/

/-- A run stays a run. -/
theorem exists_regroup_eq_binary (symbol : String) (a b : Expr) :
    ∃ symbol' a' b', (binary symbol a b).regroup = .binary symbol' a' b' := by
  by_contra none
  simp only [not_exists] at none
  have symbols := (run_regroup (.binary symbol a b)).2
  rw [(operands_of_leaf none).2, symbols_binary] at symbols
  simp at symbols

/-- Regrouping keeps the form of an expression. -/
theorem alike_regroup (e : Expr) : e.Alike (fun p p' => p ∈ e.parts ∧ p' = p.regroup) e.regroup := by
  cases e with
  | path segments => exact .path segments
  | literal value => exact .literal value
  | field e name => exact .field e e.regroup name
  | foreign shown => exact .foreign shown
  | unary symbol e => exact .unary symbol ⟨by simp [parts], rfl⟩
  | reference e => exact .reference ⟨by simp [parts], rfl⟩
  | paren e => exact .paren ⟨by simp [parts], rfl⟩
  | binary symbol a b =>
    obtain ⟨symbol', a', b', shape⟩ := exists_regroup_eq_binary symbol a b
    obtain ⟨operands, symbols⟩ := run_regroup (.binary symbol a b)
    rw [shape] at operands symbols ⊢
    exact .binary symbols.symm (operands ▸ forall₂_map_parts (List.Subset.refl _))
  | methodCall e method args =>
    rw [regroup, regroupAll_eq_map]
    exact .methodCall method ⟨by simp [parts], rfl⟩ (forall₂_map_parts (by simp [parts]))
  | call function args =>
    rw [regroup, regroupAll_eq_map]
    exact .call function (forall₂_map_parts (List.Subset.refl _))
  | array es =>
    rw [regroup, regroupAll_eq_map]
    exact .array (forall₂_map_parts (List.Subset.refl _))
  | index a b => exact .index ⟨by simp [parts], rfl⟩ ⟨by simp [parts], rfl⟩
  | range a b inclusive => exact .range inclusive ⟨by simp [parts], rfl⟩ ⟨by simp [parts], rfl⟩

end Expr

theorem Scope.misses_regroup (scope : Scope) (e : Expr) : scope.misses e.regroup = scope.misses e := by
  cases e with
  | binary symbol a b =>
    obtain ⟨symbol', a', b', shape⟩ := Expr.exists_regroup_eq_binary symbol a b
    rw [shape]
    rfl
  | _ => rfl

/-- Evaluation does not depend on how runs are grouped. -/
theorem Evaluation.outcome_regroup (scope : Scope) (resolving : List String) (e : Expr) :
    outcome scope resolving e.regroup = outcome scope resolving e := by
  induction e using Expr.parts_induction with
  | step e ih =>
  have same : Refines (fun _ => False) (outcome scope resolving e) (outcome scope resolving e.regroup) := by
    rw [outcome_eq_step scope resolving e, outcome_eq_step]
    apply step_alike (Refines.along _) (Expr.alike_regroup e)
    · exact fun _ _ => .refl _
    · rintro p _ ⟨member, rfl⟩
      exact ⟨.inl (ih p member).symm, (scope.misses_regroup p).symm⟩
  exact same.eq.symm

/-- Writing keeps the meaning of an expression even where reading does not give it back: if it consists of parts that a
text can hold, and regrouping its runs is enough to have it grouped by tightness, it is written, and its text is
read as an expression that evaluates to the same, in every scope. -/
theorem Expr.read_write_evaluates {e : Expr} (spelled : e.isSpelled = true) (groupable : e.isGroupable = true) :
    e.write? = .ok e.write
      ∧ ∃ e', Expr.read e.write = .ok e' ∧ ∀ scope : Scope, scope.evaluate e' = scope.evaluate e := by
  constructor
  · rw [write?, firstForeign?_eq_none e spelled]
  · refine ⟨e.regroup, read_write_regroup spelled groupable, fun scope => ?_⟩
    rw [Evaluation.evaluate_eq_outcome, Evaluation.evaluate_eq_outcome, Evaluation.outcome_regroup]

/-- A product of a sum that stands in the tree without brackets is read as a sum, and is evaluated as one in either
tree. -/
theorem Expr.read_write_evaluates_product :
    let product := Expr.binary "*" (.binary "+" (.literal (.int 1)) (.path ["x"])) (.literal (.int 3))
    let sum := Expr.binary "+" (.literal (.int 1)) (.binary "*" (.path ["x"]) (.literal (.int 3)))
    product.write = "1 + x * 3" ∧ Expr.read product.write = .ok sum
      ∧ (∀ scope : Scope, scope.evaluate sum = scope.evaluate product)
      ∧ (⟨Bindings.empty.insert "x" (some (.literal (.int 2))), 64⟩ : Scope).evaluate product = .ok (.int 7) := by
  intro product sum
  have text : product.write = "1 + x * 3" := by rfl
  have read : Expr.read product.write = .ok sum := by
    rw [text]
    rfl
  obtain ⟨-, e', same, evaluates⟩ := Expr.read_write_evaluates (show product.isSpelled = true by decide) (by decide)
  obtain rfl := Except.ok.inj (read.symm.trans same)
  exact ⟨text, read, evaluates, rfl⟩

end NamedExpr
