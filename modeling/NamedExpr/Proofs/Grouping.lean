import NamedExpr.Expr.Reading
import NamedExpr.Proofs.Scanning
/-!
# Grouping by tightness

An expression that is written without brackets of its own keeps its shape only if its operands hold together
tightly enough (`isGrouped`). Fed the lexemes of such a tree, a reading ends in an operand with operators waiting
for it that complete to the tree and bind at least as tightly as the tree does (`Reading.EndsIn`): so whatever
follows settles all of them or leaves the tree alone. `feed_lexemes` carries this through every shape of tree.
-/

namespace NamedExpr

namespace Expr

/-- How tightly an expression holds together: an operand that only a suffix can extend is the tightest, a prefix
operator is looser, a binary operator has its level, and a range is the loosest. -/
def tightness : Expr → Nat
  | .range .. => 0
  | .binary symbol _ _ => ((Operator.ofSymbol? symbol).map Operator.readingLevel).getD 0
  | .unary .. | .reference _ => 6
  | _ => 7

mutual

/-- Whether the operands of an expression hold together tightly enough to be written without brackets: a suffix
follows nothing looser than itself, a prefix operator stands before a suffix or another prefix operator, the left
operand of a binary operator is no looser than it and the right one tighter, and no bound of a range is a range. -/
def isGrouped : Expr → Bool
  | .literal _ | .path _ | .foreign _ => true
  | .unary _ e | .reference e => decide (6 ≤ e.tightness) && isGrouped e
  | .binary symbol a b =>
    decide ((binary symbol a b).tightness ≤ a.tightness) && decide ((binary symbol a b).tightness < b.tightness)
      && isGrouped a && isGrouped b
  | .methodCall e _ args => decide (7 ≤ e.tightness) && isGrouped e && isGroupedAll args
  | .call _ args | .array args => isGroupedAll args
  | .field e _ => decide (7 ≤ e.tightness) && isGrouped e
  | .index a b => decide (7 ≤ a.tightness) && isGrouped a && isGrouped b
  | .range a b _ => decide (0 < a.tightness) && decide (0 < b.tightness) && isGrouped a && isGrouped b
  | .paren e => isGrouped e

/-- Whether every expression of a row is grouped. -/
def isGroupedAll : List Expr → Bool
  | [] => true
  | e :: rest => isGrouped e && isGroupedAll rest

end

/-- Whether an expression is one that a text can be read as. -/
def isReadable (e : Expr) : Bool := e.isSpelled && e.isGrouped

end Expr

theorem Operator.readingLevel_bounds (op : Operator) : 0 < op.readingLevel ∧ op.readingLevel ≤ 5 := by
  cases op <;> decide

namespace Pending

theorem level_le (p : Pending) : p.level ≤ 6 := by
  cases p with
  | binary op left => exact Nat.le_succ_of_le op.readingLevel_bounds.2
  | _ => simp [level]

/-- What a pending operator makes is as tight as it binds. -/
@[simp]
theorem tightness_complete (p : Pending) (e : Expr) : (p.complete e).tightness = p.level := by
  cases p <;> simp [complete, Expr.tightness, level]

/-- Operators that bind tightly enough are all settled, before any that wait outside of them. -/
theorem settle_append {least : Nat} (inner pending : List Pending) (e : Expr) (tight : ∀ p ∈ inner, least ≤ p.level) :
    settle least (inner ++ pending) e = settle least pending (inner.foldl (fun e p => p.complete e) e) := by
  induction inner generalizing e with
  | nil => rfl
  | cons p inner ih =>
    rw [List.cons_append, settle, if_pos (tight p List.mem_cons_self), List.foldl_cons]
    exact ih _ fun q hq => tight q (List.mem_cons_of_mem _ hq)

/-- Nothing is settled if the innermost operator is looser. -/
theorem settle_eq_self {least : Nat} {pending : List Pending} (loose : ∀ p ∈ pending.head?, p.level < least)
    (e : Expr) : settle least pending e = (e, pending) := by
  cases pending with
  | nil => rfl
  | cons p pending => rw [settle, if_neg (Nat.not_le.2 (loose p rfl))]

end Pending

namespace Reading

/-- Takes lexemes up to the end, or refuses one. -/
def feedLexemes (r : Reading) : List Lexeme → Option Reading
  | [] => some r
  | lexeme :: rest => (r.feed lexeme).bind fun next => next.feedLexemes rest

theorem feedLexemes_append {r next : Reading} {first : List Lexeme} (fed : r.feedLexemes first = some next)
    (rest : List Lexeme) : r.feedLexemes (first ++ rest) = next.feedLexemes rest := by
  induction first generalizing r with
  | nil =>
    cases fed
    rfl
  | cons lexeme first ih =>
    rw [feedLexemes, Option.bind_eq_some_iff] at fed
    obtain ⟨mid, step, fed⟩ := fed
    rw [List.cons_append, feedLexemes, step, Option.bind_some, ih fed]

theorem feedLexemes_cons {r next : Reading} {lexeme : Lexeme} (fed : r.feed lexeme = some next) (rest : List Lexeme) :
    r.feedLexemes (lexeme :: rest) = next.feedLexemes rest := by
  rw [feedLexemes, fed, Option.bind_some]

/-- Tokens are taken by their lexemes alone. -/
theorem feedAll_eq_ok_iff {r next : Reading} {tokens : List Token} :
    r.feedAll tokens = .ok next ↔ r.feedLexemes (tokens.map Token.lexeme) = some next := by
  induction tokens generalizing r with
  | nil => simp [feedAll, feedLexemes]
  | cons token tokens ih =>
    rw [feedAll, List.map_cons, feedLexemes]
    cases r.feed token.lexeme with
    | none => simp
    | some mid => simpa using ih

/-- A reading ends in the expression `e`, outside of which `pending` goes on waiting: the operators that wait for
its last operand complete to `e`, and none of them is looser than `e`. -/
def EndsIn (r : Reading) (outer : List Layer) (pending : List Pending) (e : Expr) : Prop :=
  ∃ x inner, r.outer = outer ∧ r.pending = inner ++ pending ∧ r.head.toExpr? = some x
    ∧ inner.foldl (fun e p => p.complete e) x = e ∧ ∀ p ∈ inner, e.tightness ≤ p.level

/-- Whether operators that wait leave an expression alone: it has only prefix operators, or is tighter than the
innermost of them. -/
def Fits (pending : List Pending) (e : Expr) : Prop :=
  6 ≤ e.tightness ∨ ∀ p ∈ pending.head?, p.level < e.tightness

variable {r : Reading} {outer : List Layer} {pending : List Pending} {e : Expr}

/-- An operand that is complete. -/
theorem endsIn_operand (head : Head) (operand : head.toExpr? = some e) :
    EndsIn ⟨outer, pending, head⟩ outer pending e :=
  ⟨e, [], rfl, rfl, operand, rfl, by simp⟩

/-- After an operand, `::` and `(` apart, every path and every field counts as the operand it is. -/
theorem feed_of_toExpr? (operand : r.head.toExpr? = some e) {lexeme : Lexeme} (notPath : lexeme ≠ .pathSeparator)
    (notCall : lexeme ≠ .opening .round) : r.feed lexeme = r.feedAfter e lexeme := by
  obtain ⟨outer, pending, head⟩ := r
  cases head with
  | path segments | member receiver name =>
    obtain rfl := Option.some.inj operand
    simp only [feed]
  | operand x =>
    obtain rfl := Option.some.inj operand
    rfl
  | missing | pathOpen | dotted => cases operand

namespace EndsIn

/-- Operators in the tightest expressions have been settled already. -/
theorem of_tight (ends : r.EndsIn outer pending e) (tight : 7 ≤ e.tightness) :
    ∃ head, r = ⟨outer, pending, head⟩ ∧ head.toExpr? = some e := by
  obtain ⟨x, inner, houter, hpending, operand, completes, levels⟩ := ends
  cases inner with
  | nil =>
    obtain ⟨_, _, head⟩ := r
    simp only [List.foldl_nil] at completes
    subst houter hpending completes
    exact ⟨head, rfl, operand⟩
  | cons p inner =>
    have := levels p List.mem_cons_self
    have := p.level_le
    omega

/-- Settling what binds at least as tightly as the expression leaves it whole. -/
theorem settle (ends : r.EndsIn outer pending e) {least : Nat} (loose : least ≤ e.tightness) :
    ∃ x, r.head.toExpr? = some x ∧ Pending.settle least r.pending x = Pending.settle least pending e := by
  obtain ⟨x, inner, _, hpending, operand, completes, levels⟩ := ends
  refine ⟨x, operand, ?_⟩
  rw [hpending, Pending.settle_append inner pending x fun p hp => Nat.le_trans loose (levels p hp), completes]

/-- The innermost operator outside of an expression takes it as its operand, if it binds no tighter. -/
theorem complete {p : Pending} (ends : r.EndsIn outer (p :: pending) e) (tight : p.level ≤ e.tightness) :
    r.EndsIn outer pending (p.complete e) := by
  obtain ⟨x, inner, houter, hpending, operand, completes, levels⟩ := ends
  refine ⟨x, inner ++ [p], houter, by simp [hpending], operand, by simp [completes], fun q hq => ?_⟩
  rw [Pending.tightness_complete]
  obtain inside | last := List.mem_append.1 hq
  · exact Nat.le_trans tight (levels q inside)
  · rw [List.mem_singleton.1 last]

end EndsIn

/-! ## Feeding an expression -/

/-- A literal that can be read is taken as itself. -/
theorem feed_literal {value : Literal} (readable : value.isReadable = true) :
    feed ⟨outer, pending, .missing⟩ value.lexeme = some ⟨outer, pending, .operand (.literal value)⟩ := by
  cases value with
  | int n =>
    simp only [Literal.isReadable, decide_eq_true_eq] at readable
    simp [Literal.lexeme, feed, feedMissing, literal, readable.1]
  | unknown shown => cases readable
  | _ => rfl

/-- The parts of a path are taken one after the other. -/
theorem feedLexemes_pathLexemes {segments : List String} (some : segments ≠ []) :
    feedLexemes ⟨outer, pending, .missing⟩ (Expr.pathLexemes segments) = .some ⟨outer, pending, .path segments⟩ := by
  have more (done : List String) (s : String) (rest : List String) :
      feedLexemes ⟨outer, pending, .pathOpen done⟩ (Expr.pathLexemes (s :: rest))
        = .some ⟨outer, pending, .path (done ++ s :: rest)⟩ := by
    induction rest generalizing done s with
    | nil => rfl
    | cons t rest ih =>
      have next := ih (done ++ [s]) t
      rw [List.append_assoc, List.singleton_append] at next
      exact next
  cases segments with
  | nil => exact absurd rfl some
  | cons s segments =>
    cases segments with
    | nil => rfl
    | cons t segments => exact more [s] t segments

/-- A closing bracket after the last expression in it. -/
theorem feed_closing {layer : Layer} (ends : r.EndsIn (layer :: outer) [] e) :
    r.feed (.closing layer.opened.bracket) = some ⟨outer, layer.pending, .operand (layer.opened.complete e)⟩ := by
  obtain ⟨x, operand, settled⟩ := ends.settle (Nat.zero_le _)
  obtain ⟨_, _, houter, _⟩ := ends
  obtain ⟨waiting, opened⟩ := layer
  rw [feed_of_toExpr? operand (by simp) (by simp)]
  simp [feedAfter, closeAfter, houter, settled, Pending.settle]

/-- A comma after an argument. -/
theorem feed_comma {owner : Owner} {done : List Expr} {waiting : List Pending}
    (ends : r.EndsIn (⟨waiting, .arguments owner done⟩ :: outer) [] e) :
    r.feed .comma = some ⟨⟨waiting, .arguments owner (e :: done)⟩ :: outer, [], .missing⟩ := by
  obtain ⟨x, operand, settled⟩ := ends.settle (Nat.zero_le _)
  obtain ⟨_, _, houter, _⟩ := ends
  rw [feed_of_toExpr? operand (by simp) (by simp)]
  simp [feedAfter, nextArgument, houter, settled, Pending.settle]

/-- A binary operator after its left operand. -/
theorem feed_operator {op : Operator} (ends : r.EndsIn outer pending e) (loose : op.readingLevel ≤ e.tightness)
    (fits : ∀ p ∈ pending.head?, p.level < op.readingLevel) :
    r.feed (.operator op) = some ⟨outer, .binary op e :: pending, .missing⟩ := by
  obtain ⟨x, operand, settled⟩ := ends.settle loose
  obtain ⟨_, _, houter, _⟩ := ends
  rw [feed_of_toExpr? operand (by simp) (by simp)]
  simp [feedAfter, houter, settled, Pending.settle_eq_self fits]

/-- The points of a range after its start. -/
theorem feed_range {inclusive : Bool} (ends : r.EndsIn outer [] e) (tight : 0 < e.tightness) :
    r.feed (.range inclusive) = some ⟨outer, [.range e inclusive], .missing⟩ := by
  obtain ⟨x, operand, settled⟩ := ends.settle tight
  obtain ⟨_, _, houter, _⟩ := ends
  rw [feed_of_toExpr? operand (by simp) (by simp)]
  simp [feedAfter, houter, settled, Pending.settle]

/-- A point and a name after an operand. -/
theorem feedLexemes_member (ends : r.EndsIn outer pending e) (tight : 7 ≤ e.tightness) (name : String)
    (rest : List Lexeme) :
    r.feedLexemes (.dot :: .name name :: rest) = feedLexemes ⟨outer, pending, .member e name⟩ rest := by
  obtain ⟨head, rfl, operand⟩ := ends.of_tight tight
  rw [feedLexemes, feed_of_toExpr? operand (by simp) (by simp)]
  rfl

/-- Where an operand has to come, the lexemes of an expression are taken and lead to it, as long as the operators
that wait leave it alone. -/
def LeadsTo (e : Expr) : Prop :=
  ∀ outer pending, Fits pending e →
    ∃ r, feedLexemes ⟨outer, pending, .missing⟩ e.lexemes = some r ∧ r.EndsIn outer pending e

/-- Both operands of a binary operator hold together: the left one before the operator settles what waits for it, the
right one because it is tighter than the operator. -/
theorem leadsTo_binary {op : Operator} {a b : Expr} (left : op.readingLevel ≤ a.tightness)
    (right : op.readingLevel < b.tightness) (ofLeft : LeadsTo a) (ofRight : LeadsTo b) :
    LeadsTo (.binary op.symbol a b) := by
  intro outer pending fits
  have level : (Expr.binary op.symbol a b).tightness = op.readingLevel := by simp [Expr.tightness]
  have loose : ∀ p ∈ pending.head?, p.level < op.readingLevel := by
    rw [← level]
    refine fits.resolve_left ?_
    have := op.readingLevel_bounds
    omega
  obtain ⟨r, fed, ends⟩ := ofLeft outer pending (.inr fun p hp => Nat.lt_of_lt_of_le (loose p hp) left)
  have fitsRight : Fits (.binary op a :: pending) b := .inr fun p hp => by
    obtain rfl := Option.some.inj hp
    exact right
  obtain ⟨r', fed', ends'⟩ := ofRight outer (.binary op a :: pending) fitsRight
  refine ⟨r', ?_, ends'.complete (Nat.le_of_lt right)⟩
  rw [Expr.lexemes, Operator.ofSymbol?_symbol, feedLexemes_append fed]
  exact (feedLexemes_cons (feed_operator ends left loose) _).trans fed'

/-- Nothing is looser than a range, so it stands outside of every operator that waits. -/
theorem leadsTo_range {a b : Expr} {inclusive : Bool} (left : 0 < a.tightness) (right : 0 < b.tightness)
    (ofStart : LeadsTo a) (ofStop : LeadsTo b) : LeadsTo (.range a b inclusive) := by
  intro outer pending fits
  obtain rfl : pending = [] := by
    cases pending with
    | nil => rfl
    | cons p pending =>
      obtain tight | loose := fits
      · exact absurd tight (by simp [Expr.tightness])
      · exact absurd (loose p rfl) (by simp [Expr.tightness])
  obtain ⟨r, fed, ends⟩ := ofStart outer [] (.inr (by simp))
  have fitsRight : Fits [.range a inclusive] b := .inr fun p hp => by
    obtain rfl := Option.some.inj hp
    exact right
  obtain ⟨r', fed', ends'⟩ := ofStop outer [.range a inclusive] fitsRight
  refine ⟨r', ?_, ends'.complete (Nat.zero_le _)⟩
  rw [Expr.lexemes, feedLexemes_append fed]
  exact (feedLexemes_cons (feed_range ends left) _).trans fed'

/-- The place in an index stands in brackets of its own. -/
theorem leadsTo_index {a b : Expr} (tight : 7 ≤ a.tightness) (ofTarget : LeadsTo a) (ofPlace : LeadsTo b) :
    LeadsTo (.index a b) := by
  intro outer pending _
  obtain ⟨r, fed, ends⟩ := ofTarget outer pending (.inl (Nat.le_of_succ_le tight))
  obtain ⟨head, rfl, operand⟩ := ends.of_tight tight
  obtain ⟨r', fed', ends'⟩ := ofPlace (⟨pending, .index a⟩ :: outer) [] (.inr (by simp))
  refine ⟨_, ?_, endsIn_operand (.operand _) rfl⟩
  have opens : feed ⟨outer, pending, head⟩ (.opening .square)
      = some ⟨⟨pending, .index a⟩ :: outer, [], .missing⟩ := by
    rw [feed_of_toExpr? operand (by simp) (by simp)]
    rfl
  rw [Expr.lexemes, feedLexemes_append fed, feedLexemes_cons opens, feedLexemes_append fed']
  exact feedLexemes_cons (feed_closing ends') []

mutual

/-- The lexemes of an expression that a text can hold lead to it. -/
theorem feed_lexemes : (e : Expr) → e.isSpelled = true → e.isGrouped = true → LeadsTo e
  | .literal value, spelled, _ => fun _ _ _ =>
    ⟨_, feedLexemes_cons (feed_literal spelled) [], endsIn_operand (.operand _) rfl⟩
  | .path segments, spelled, _ => fun _ _ _ => by
    simp only [Expr.isSpelled, Expr.isPath, Bool.and_eq_true, Bool.not_eq_true', List.isEmpty_eq_false_iff] at spelled
    exact ⟨_, feedLexemes_pathLexemes spelled.1, endsIn_operand (.path segments) rfl⟩
  | .unary symbol e, spelled, grouped => fun outer pending _ => by
    simp only [Expr.isSpelled, Bool.and_eq_true, Option.isSome_iff_exists] at spelled
    simp only [Expr.isGrouped, Bool.and_eq_true, decide_eq_true_eq] at grouped
    obtain ⟨⟨op, known⟩, spelled⟩ := spelled
    obtain rfl := UnaryOperator.ofSymbol?_eq_some_iff.1 known
    obtain ⟨r, fed, ends⟩ := feed_lexemes e spelled grouped.2 outer (.unary op :: pending) (.inl grouped.1)
    refine ⟨r, ?_, ends.complete grouped.1⟩
    rw [Expr.lexemes, known]
    cases op <;> exact (feedLexemes_cons rfl _).trans fed
  | .reference e, spelled, grouped => fun outer pending _ => by
    simp only [Expr.isGrouped, Bool.and_eq_true, decide_eq_true_eq] at grouped
    obtain ⟨r, fed, ends⟩ := feed_lexemes e spelled grouped.2 outer (.reference :: pending) (.inl grouped.1)
    exact ⟨r, (feedLexemes_cons rfl _).trans fed, ends.complete grouped.1⟩
  | .binary symbol a b, spelled, grouped => by
    simp only [Expr.isSpelled, Bool.and_eq_true, Option.isSome_iff_exists] at spelled
    obtain ⟨⟨⟨op, known⟩, spelledLeft⟩, spelledRight⟩ := spelled
    obtain rfl := Operator.ofSymbol?_eq_some_iff.1 known
    have level : (Expr.binary op.symbol a b).tightness = op.readingLevel := by simp [Expr.tightness]
    simp only [Expr.isGrouped, level, Bool.and_eq_true, decide_eq_true_eq] at grouped
    obtain ⟨⟨⟨left, right⟩, groupedLeft⟩, groupedRight⟩ := grouped
    exact leadsTo_binary left right (feed_lexemes a spelledLeft groupedLeft) (feed_lexemes b spelledRight groupedRight)
  | .methodCall e method args, spelled, grouped => fun outer pending _ => by
    simp only [Expr.isSpelled, Bool.and_eq_true] at spelled
    simp only [Expr.isGrouped, Bool.and_eq_true, decide_eq_true_eq] at grouped
    obtain ⟨⟨tight, groupedReceiver⟩, groupedArgs⟩ := grouped
    have fits : Fits pending e := .inl (Nat.le_of_succ_le tight)
    obtain ⟨r, fed, ends⟩ := feed_lexemes e spelled.1.1 groupedReceiver outer pending fits
    have list := feed_lexemesAll args spelled.2 groupedArgs (.method e method) [] outer pending
    refine ⟨_, ?_, endsIn_operand (.operand _) rfl⟩
    rw [Expr.lexemes, feedLexemes_append fed, feedLexemes_member ends tight]
    exact (feedLexemes_cons rfl _).trans list
  | .call function args, spelled, grouped => fun outer pending _ => by
    simp only [Expr.isSpelled, Expr.isPath, Bool.and_eq_true, Bool.not_eq_true', List.isEmpty_eq_false_iff] at spelled
    have list := feed_lexemesAll args spelled.2 grouped (.function function) [] outer pending
    refine ⟨_, ?_, endsIn_operand (.operand _) rfl⟩
    rw [Expr.lexemes, feedLexemes_append (feedLexemes_pathLexemes spelled.1.1)]
    exact (feedLexemes_cons rfl _).trans list
  | .field e name, spelled, grouped => fun outer pending _ => by
    simp only [Expr.isSpelled, Bool.and_eq_true] at spelled
    simp only [Expr.isGrouped, Bool.and_eq_true, decide_eq_true_eq] at grouped
    have fits : Fits pending e := .inl (Nat.le_of_succ_le grouped.1)
    obtain ⟨r, fed, ends⟩ := feed_lexemes e spelled.1 grouped.2 outer pending fits
    refine ⟨_, ?_, endsIn_operand (.member e name) rfl⟩
    rw [Expr.lexemes, feedLexemes_append fed, feedLexemes_member ends grouped.1]
    rfl
  | .array elements, spelled, grouped => fun outer pending _ => by
    have list := feed_lexemesAll elements spelled grouped .array [] outer pending
    exact ⟨_, (feedLexemes_cons rfl _).trans list, endsIn_operand (.operand _) rfl⟩
  | .index a b, spelled, grouped => by
    simp only [Expr.isSpelled, Bool.and_eq_true] at spelled
    simp only [Expr.isGrouped, Bool.and_eq_true, decide_eq_true_eq] at grouped
    obtain ⟨⟨tight, groupedTarget⟩, groupedPlace⟩ := grouped
    exact leadsTo_index tight (feed_lexemes a spelled.1 groupedTarget) (feed_lexemes b spelled.2 groupedPlace)
  | .range a b inclusive, spelled, grouped => by
    simp only [Expr.isSpelled, Bool.and_eq_true] at spelled
    simp only [Expr.isGrouped, Bool.and_eq_true, decide_eq_true_eq] at grouped
    obtain ⟨⟨⟨left, right⟩, groupedLeft⟩, groupedRight⟩ := grouped
    exact leadsTo_range left right (feed_lexemes a spelled.1 groupedLeft) (feed_lexemes b spelled.2 groupedRight)
  | .paren e, spelled, grouped => fun outer pending _ => by
    obtain ⟨r, fed, ends⟩ := feed_lexemes e spelled grouped (⟨pending, .paren⟩ :: outer) [] (.inr (by simp))
    refine ⟨_, ?_, endsIn_operand (.operand _) rfl⟩
    have closed := (feedLexemes_append fed [.closing .round]).trans (feedLexemes_cons (feed_closing ends) [])
    exact (feedLexemes_cons rfl _).trans closed

/-- Taking the arguments of an open list and its closing bracket, a reading ends in what they complete. -/
theorem feed_lexemesAll : (es : List Expr) → Expr.isSpelledAll es = true → Expr.isGroupedAll es = true →
    (owner : Owner) → (done : List Expr) → (outer : List Layer) → (pending : List Pending) →
    feedLexemes ⟨⟨pending, .arguments owner done⟩ :: outer, [], .missing⟩
        (Expr.lexemesAll es ++ [.closing owner.bracket])
      = some ⟨outer, pending, .operand (owner.complete (done.reverse ++ es))⟩
  | [], _, _, owner, done, outer, pending => by
    simp [Expr.lexemesAll, feedLexemes, feed, feedMissing, closeArguments]
  | [e], spelled, grouped, owner, done, outer, pending => by
    simp only [Expr.isSpelledAll, Expr.isGroupedAll, Bool.and_true] at spelled grouped
    obtain ⟨r, fed, ends⟩ := feed_lexemes e spelled grouped (⟨pending, .arguments owner done⟩ :: outer) []
      (.inr (by simp))
    rw [Expr.lexemesAll, feedLexemes_append fed, ← List.reverse_cons]
    exact feedLexemes_cons (feed_closing ends) []
  | e :: f :: es, spelled, grouped, owner, done, outer, pending => by
    rw [Expr.isSpelledAll, Bool.and_eq_true] at spelled
    rw [Expr.isGroupedAll, Bool.and_eq_true] at grouped
    obtain ⟨r, fed, ends⟩ := feed_lexemes e spelled.1 grouped.1 (⟨pending, .arguments owner done⟩ :: outer) []
      (.inr (by simp))
    have others := feed_lexemesAll (f :: es) spelled.2 grouped.2 owner (e :: done) outer pending
    rw [List.reverse_cons, List.append_assoc] at others
    have list : Expr.lexemesAll (e :: f :: es) = e.lexemes ++ (.comma :: Expr.lexemesAll (f :: es)) := rfl
    rw [list, List.append_assoc, feedLexemes_append fed]
    exact (feedLexemes_cons (feed_comma ends) _).trans others

end

/-- A reading that ends in an expression outside of which nothing waits has read it. -/
theorem EndsIn.finish (ends : r.EndsIn [] [] e) : r.finish = some e := by
  obtain ⟨x, operand, settled⟩ := ends.settle (Nat.zero_le _)
  obtain ⟨_, _, outer, _⟩ := ends
  rw [Reading.finish, outer, operand]
  exact congrArg (fun settled => some settled.1) settled

end Reading

/-- A tree that could have been read is read from its text. -/
theorem Expr.read_write {e : Expr} (readable : e.isReadable = true) : Expr.read e.write = .ok e := by
  rw [isReadable, Bool.and_eq_true] at readable
  obtain ⟨spelled, grouped⟩ := readable
  obtain ⟨scanned, complete⟩ := scan_write spelled 1
  obtain ⟨r, fed, ends⟩ := Reading.feed_lexemes e spelled grouped [] [] (.inr (by simp))
  rw [← scanned] at fed
  have whole : Reading.start.feedAll (Scan.scan 1 e.write).tokens = .ok r := Reading.feedAll_eq_ok_iff.2 fed
  simp only [Expr.read, whole, complete, ends.finish]

end NamedExpr
