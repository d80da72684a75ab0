import Mathlib.Data.List.Basic
import Mathlib.Data.Option.Basic
import NamedExpr.Proofs.Failures
/-!
# The first fault of a text

A text that cannot be read is reported at the first place where no expression goes on. Whether a reading takes a lexeme
depends on its kind alone and on the form of what has been read (`form_feed`), and every reading can be completed
(`exists_finish`). So the kinds that are taken are those with which the words of an expression may start
(`viable_iff`), a token that is refused is the first that none goes on with, and a place where no word can be read
comes into it only if nothing before it was refused (`Expr.read_eq_error_iff`). All of that is reported as wrong syntax,
except an integer that is written with more digits than are read (`Expr.kind_of_read`).
-/

namespace NamedExpr

namespace Lexeme

/-- What a lexeme is, apart from the number, text or name that it holds. -/
inductive Kind where
  | integer
  | float
  | text
  | name
  | boolean (b : Bool)
  | none
  | operator (op : Operator)
  | bang
  | ampersand
  | range (inclusive : Bool)
  | dot
  | pathSeparator
  | comma
  | opening (b : Bracket)
  | closing (b : Bracket)
  deriving DecidableEq

/-- The kind of a lexeme. -/
def kind : Lexeme → Kind
  | .integer _ => .integer
  | .float _ => .float
  | .text _ => .text
  | .name _ => .name
  | .boolean b => .boolean b
  | .none => .none
  | .operator op => .operator op
  | .bang => .bang
  | .ampersand => .ampersand
  | .range inclusive => .range inclusive
  | .dot => .dot
  | .pathSeparator => .pathSeparator
  | .comma => .comma
  | .opening b => .opening b
  | .closing b => .closing b

/-- Some text with words of these kinds is read as an expression. -/
def Accepted (kinds : List Kind) : Prop :=
  ∃ text e, Expr.read text = .ok e ∧ (Scan.scan 1 text).lexemes.map kind = kinds

/-- The words of some text that is read as an expression start with words of these kinds. -/
def Viable (kinds : List Kind) : Prop := ∃ more, Accepted (kinds ++ more)

/-- Lexemes of one kind are the same, unless they hold a number, a text or a name. -/
theorem eq_or_holds_of_kind_eq {l l' : Lexeme} (same : l.kind = l'.kind) :
    l = l' ∨ (∃ m n, l = .integer m ∧ l' = .integer n) ∨ (∃ x y, l = .float x ∧ l' = .float y)
      ∨ (∃ s t, l = .text s ∧ l' = .text t) ∨ ∃ s t, l = .name s ∧ l' = .name t := by
  cases l <;> cases l' <;> simp_all [kind]

theorem kind_eq_pathSeparator_iff {l : Lexeme} : l.kind = .pathSeparator ↔ l = .pathSeparator := by
  cases l <;> simp [kind]

theorem kind_eq_opening_iff {l : Lexeme} {b : Bracket} : l.kind = .opening b ↔ l = .opening b := by
  cases l <;> simp [kind]

/-! ## A text for every row of lexemes -/

theorem exists_readsAs {lexeme : Lexeme} (readable : lexeme.isReadable = true) (rest : List Char) :
    ∃ text, ReadsAs lexeme (' ' :: rest) text := by
  have stop : EndsWord (' ' :: rest) := .of_head _ (by decide) (by decide) (by decide)
  have ofLiteral (value : Literal) (readable : value.isReadable = true) (same : value.lexeme = lexeme) :
      ∃ text, ReadsAs lexeme (' ' :: rest) text := ⟨_, same ▸ Word.readsAs_literal readable stop⟩
  have ofSymbol (nonempty : lexeme.shown.toList ≠ [])
      (symbol : Word.symbol? (lexeme.shown.toList ++ ' ' :: rest) = some (lexeme, lexeme.shown.toList)) :
      ∃ text, ReadsAs lexeme (' ' :: rest) text := ⟨_, Word.readsAs_symbol symbol nonempty⟩
  cases lexeme with
  | integer n =>
    simp only [isReadable, decide_eq_true_eq] at readable
    exact ⟨_, Word.readsAs_integer readable stop⟩
  | float x => exact ofLiteral (.float x) readable rfl
  | text s => exact ofLiteral (.str s) rfl rfl
  | name s => exact ⟨_, Word.readsAs_name readable stop⟩
  | boolean b => exact ofLiteral (.bool b) rfl rfl
  | none => exact ofLiteral .none rfl rfl
  | operator op => cases op <;> exact ofSymbol (by simp [shown, Operator.symbol]) rfl
  | range inclusive => cases inclusive <;> exact ofSymbol (by simp [shown]) rfl
  | opening b => cases b <;> exact ofSymbol (by simp [shown]) rfl
  | closing b => cases b <;> exact ofSymbol (by simp [shown]) rfl
  | bang | ampersand | dot | pathSeparator | comma => exact ofSymbol (by simp [shown]) rfl

end Lexeme

/-- A text that scans to a row of lexemes, each of which a text can hold. -/
theorem exists_scans {lexemes : List Lexeme} (readable : ∀ lexeme ∈ lexemes, lexeme.isReadable = true) :
    ∃ cs, Scans cs lexemes := by
  induction lexemes with
  | nil => exact ⟨[], .nil⟩
  | cons lexeme lexemes ih =>
    obtain ⟨first, others⟩ := List.forall_mem_cons.1 readable
    obtain ⟨cs, scans⟩ := ih others
    obtain ⟨text, reads⟩ := Lexeme.exists_readsAs first cs
    exact ⟨text ++ ' ' :: cs, scans.space.word reads⟩

/-! ## What reading depends on -/

/-- The form of an operand at the end of a reading, apart from what it holds. -/
inductive Head.Form where
  | missing
  | path
  | pathOpen
  | operand
  | dotted
  | member

/-- The form of the operand at the end of a reading. -/
def Head.form : Head → Form
  | .missing => .missing
  | .path _ => .path
  | .pathOpen _ => .pathOpen
  | .operand _ => .operand
  | .dotted _ => .dotted
  | .member .. => .member

/-- The kind of an open bracket, and whether a list stands in it. -/
def Opened.form : Opened → Bracket × Bool
  | .paren => (.round, false)
  | .index _ => (.square, false)
  | .arguments owner _ => (owner.bracket, true)

theorem Opened.form_fst (opened : Opened) : opened.form.1 = opened.bracket := by
  cases opened <;> rfl

/-- An open bracket apart from the expressions it holds: the levels of the operators that wait outside of it, and its
form. -/
def Layer.form (layer : Layer) : List Nat × Bracket × Bool := (layer.pending.map Pending.level, layer.opened.form)

/-- What decides on how a reading goes on: the levels of the operators that wait, and the forms of the open brackets and
of the operand at the end. -/
structure Reading.Form where
  outer : List (List Nat × Bracket × Bool)
  pending : List Nat
  head : Head.Form

/-- The form of a reading. -/
def Reading.form (r : Reading) : Form := ⟨r.outer.map Layer.form, r.pending.map Pending.level, r.head.form⟩

/-- Which operators are settled depends on their levels alone. -/
theorem Pending.levels_settle (least : Nat) (pending : List Pending) (e : Expr) :
    (settle least pending e).2.map level = (pending.map level).dropWhile fun l => least ≤ l := by
  fun_induction settle least pending e with
  | case1 => rfl
  | case2 p rest e binds ih => rw [ih, List.map_cons, List.dropWhile_cons_of_pos (by simpa using binds)]
  | case3 p rest e loose => rw [List.map_cons, List.dropWhile_cons_of_neg (by simpa using loose)]

namespace Reading

variable {r r' : Reading} {e e' : Expr}

theorem form_eq_iff :
    r.form = r'.form ↔ r.outer.map Layer.form = r'.outer.map Layer.form
      ∧ r.pending.map Pending.level = r'.pending.map Pending.level ∧ r.head.form = r'.head.form := by
  rw [form, form, Form.mk.injEq]

/-- Readings of one form have the same brackets open, of which the innermost have one form. -/
theorem outer_cases (same : r.form = r'.form) :
    (r.outer = [] ∧ r'.outer = []) ∨ ∃ layer outer layer' outer', r.outer = layer :: outer ∧ r'.outer = layer' :: outer'
      ∧ layer.form = layer'.form ∧ outer.map Layer.form = outer'.map Layer.form := by
  have outers := (form_eq_iff.1 same).1
  cases outer : r.outer with
  | nil =>
    rw [outer, List.map_nil] at outers
    exact .inl ⟨rfl, List.map_eq_nil_iff.1 outers.symm⟩
  | cons layer rest =>
    rw [outer, List.map_cons] at outers
    obtain ⟨layer', rest', shape, first, others⟩ := List.map_eq_cons_iff.1 outers.symm
    exact .inr ⟨layer, rest, layer', rest', rfl, shape, first.symm, others.symm⟩

theorem form_openBracket (same : r.form = r'.form) {opened opened' : Opened} (alike : opened.form = opened'.form) :
    (r.openBracket opened).form = (r'.openBracket opened').form := by
  obtain ⟨outer, pending, -⟩ := form_eq_iff.1 same
  simp [openBracket, form, Layer.form, outer, pending, alike]

theorem form_closeAfter (same : r.form = r'.form) (b : Bracket) :
    (r.closeAfter b e).map form = (r'.closeAfter b e').map form := by
  obtain ⟨none, none'⟩ | ⟨layer, outer, layer', outer', shape, shape', alike, others⟩ := outer_cases same
  · simp [closeAfter, none, none']
  · obtain ⟨levels, opened⟩ := Prod.mk.inj alike
    have bracket : layer.opened.bracket = layer'.opened.bracket := by
      rw [← Opened.form_fst, ← Opened.form_fst, opened]
    simp only [closeAfter, shape, shape', bracket]
    split <;> simp [form, others, levels, Head.form]

theorem form_nextArgument (same : r.form = r'.form) : (r.nextArgument e).map form = (r'.nextArgument e').map form := by
  obtain ⟨none, none'⟩ | ⟨layer, outer, layer', outer', shape, shape', alike, others⟩ := outer_cases same
  · simp [nextArgument, none, none']
  · obtain ⟨waiting, opened⟩ := layer
    obtain ⟨waiting', opened'⟩ := layer'
    simp only [nextArgument, shape, shape']
    cases opened <;> cases opened' <;> simp_all [Layer.form, Opened.form, form]

theorem form_closeArguments (same : r.form = r'.form) (b : Bracket) :
    (r.closeArguments b).map form = (r'.closeArguments b).map form := by
  obtain ⟨-, levels, -⟩ := form_eq_iff.1 same
  obtain ⟨none, none'⟩ | ⟨layer, outer, layer', outer', shape, shape', alike, others⟩ := outer_cases same
  · simp [closeArguments, none, none']
  · obtain ⟨waiting, opened⟩ := layer
    obtain ⟨waiting', opened'⟩ := layer'
    simp only [closeArguments, shape, shape']
    cases pending : r.pending <;> cases pending' : r'.pending <;> simp [pending, pending'] at levels ⊢
    cases opened <;> cases opened' <;> simp_all [Layer.form, Opened.form]
    split <;> simp_all [form, Head.form, Layer.form]

theorem form_feedMissing (same : r.form = r'.form) {l l' : Lexeme} (kind : l.kind = l'.kind) :
    (r.feedMissing l).map form = (r'.feedMissing l').map form := by
  obtain ⟨outer, pending, -⟩ := form_eq_iff.1 same
  obtain rfl | ⟨m, n, rfl, rfl⟩ | ⟨x, y, rfl, rfl⟩ | ⟨s, t, rfl, rfl⟩ | ⟨s, t, rfl, rfl⟩ :=
    Lexeme.eq_or_holds_of_kind_eq kind
  · unfold feedMissing
    split
    all_goals first
      | exact form_closeArguments same _
      | exact congrArg some (form_openBracket same rfl)
      | simp [form, literal, await, Head.form, outer, pending]
  all_goals simp [feedMissing, form, literal, Head.form, outer, pending]

theorem form_feedAfter (same : r.form = r'.form) {l l' : Lexeme} (kind : l.kind = l'.kind) :
    (r.feedAfter e l).map form = (r'.feedAfter e' l').map form := by
  obtain ⟨outer, pending, -⟩ := form_eq_iff.1 same
  obtain rfl | ⟨m, n, rfl, rfl⟩ | ⟨x, y, rfl, rfl⟩ | ⟨s, t, rfl, rfl⟩ | ⟨s, t, rfl, rfl⟩ :=
    Lexeme.eq_or_holds_of_kind_eq kind
  · unfold feedAfter
    split
    · simp [form, Head.form, outer, pending]
    · exact congrArg some (form_openBracket same rfl)
    · simp [form, Pending.levels_settle, Pending.level, outer, pending]
    · -- a range is refused if another one goes on waiting, and whether it does depends on the levels
      have levels : (Pending.settle 1 r.pending e).2.map Pending.level
          = (Pending.settle 1 r'.pending e').2.map Pending.level := by
        rw [Pending.levels_settle, Pending.levels_settle, pending]
      cases settled : Pending.settle 1 r.pending e with
      | mk first waiting =>
        cases settled' : Pending.settle 1 r'.pending e' with
        | mk first' waiting' =>
          rw [settled, settled'] at levels
          cases waiting <;> cases waiting' <;> simp_all [form, Pending.level]
    · exact form_nextArgument same
    · exact form_closeAfter same _
    · rfl
  all_goals rfl

theorem form_feed_operand (same : r.form = r'.form) {l l' : Lexeme} (kind : l.kind = l'.kind)
    (operand : r.head.toExpr? = some e) (operand' : r'.head.toExpr? = some e') :
    (r.feed l).map form = (r'.feed l').map form := by
  obtain ⟨outer, pending, head⟩ := form_eq_iff.1 same
  have separators : l = .pathSeparator ↔ l' = .pathSeparator := by
    rw [← Lexeme.kind_eq_pathSeparator_iff, kind, Lexeme.kind_eq_pathSeparator_iff]
  have rounds : l = .opening .round ↔ l' = .opening .round := by
    rw [← Lexeme.kind_eq_opening_iff, kind, Lexeme.kind_eq_opening_iff]
  by_cases separator : l = .pathSeparator
  · -- it goes on with a path, and with nothing else
    obtain rfl := separators.1 separator
    subst separator
    cases shape : r.head <;> cases shape' : r'.head <;> simp only [shape, shape', Head.form, reduceCtorEq] at head
    case path.path => simp [feed, shape, shape', form, Head.form, outer, pending]
    case operand.operand | member.member => simp only [feed, feedAfter, shape, shape', Option.map_none]
    all_goals simp [shape, Head.toExpr?] at operand
  by_cases round : l = .opening .round
  · -- it opens the arguments of a function or a method
    obtain rfl := rounds.1 round
    subst round
    cases shape : r.head <;> cases shape' : r'.head <;> simp only [shape, shape', Head.form, reduceCtorEq] at head
    case path.path | member.member =>
      simp only [feed, shape, shape']
      exact congrArg some (form_openBracket same rfl)
    case operand.operand => simp [feed, feedAfter, shape, shape']
    all_goals simp [shape, Head.toExpr?] at operand
  · rw [feed_of_toExpr? operand separator round,
      feed_of_toExpr? operand' (mt separators.2 separator) (mt rounds.2 round)]
    exact form_feedAfter same kind

/-- Whether a lexeme is taken, and the form of what has been read after it, depends on its kind and on the form of
what has been read before it. -/
theorem form_feed (same : r.form = r'.form) {l l' : Lexeme} (kind : l.kind = l'.kind) :
    (r.feed l).map form = (r'.feed l').map form := by
  obtain ⟨outer, pending, head⟩ := form_eq_iff.1 same
  cases shape : r.head <;> cases shape' : r'.head <;> simp only [shape, shape', Head.form, reduceCtorEq] at head
  case missing.missing => simpa only [feed, shape, shape'] using form_feedMissing same kind
  case pathOpen.pathOpen | dotted.dotted =>
    cases l <;> cases l' <;> simp only [Lexeme.kind, reduceCtorEq] at kind <;>
      simp [feed, shape, shape', form, Head.form, outer, pending]
  all_goals
    apply form_feed_operand same kind
    · rw [shape, Head.toExpr?]
    · rw [shape', Head.toExpr?]

theorem form_feedLexemes (same : r.form = r'.form) {ls ls' : List Lexeme}
    (kinds : ls.map Lexeme.kind = ls'.map Lexeme.kind) :
    (r.feedLexemes ls).map form = (r'.feedLexemes ls').map form := by
  induction ls generalizing r r' ls' with
  | nil =>
    obtain rfl := List.map_eq_nil_iff.1 kinds.symm
    exact congrArg some same
  | cons l ls ih =>
    obtain ⟨l', rest', rfl, first, others⟩ := List.map_eq_cons_iff.1 kinds.symm
    have step := form_feed same first.symm
    rw [feedLexemes, feedLexemes]
    cases fed : r.feed l with
    | none =>
      have refused : r'.feed l' = none := by simpa [fed] using step.symm
      rw [refused]
      rfl
    | some next =>
      rw [fed, Option.map_some] at step
      obtain ⟨next', fed', alike⟩ := Option.map_eq_some_iff.1 step.symm
      rw [fed']
      exact ih alike.symm others.symm

/-- Lexemes of the same kinds are taken too, and lead to a reading of the same form. -/
theorem exists_form_eq {ls ls' : List Lexeme} (kinds : ls.map Lexeme.kind = ls'.map Lexeme.kind)
    (fed : start.feedLexemes ls = some r) : ∃ r', start.feedLexemes ls' = some r' ∧ r'.form = r.form := by
  have alike := form_feedLexemes (r := start) rfl kinds
  rw [fed, Option.map_some] at alike
  exact Option.map_eq_some_iff.1 alike.symm

/-- Whether a reading is complete depends on its form. -/
theorem isSome_finish (same : r.form = r'.form) : r.finish.isSome = r'.finish.isSome := by
  obtain ⟨-, -, heads⟩ := form_eq_iff.1 same
  have operands : r.head.toExpr?.isSome = r'.head.toExpr?.isSome := by
    cases shape : r.head <;> cases shape' : r'.head <;> simp_all [Head.form, Head.toExpr?]
  obtain ⟨none, none'⟩ | ⟨layer, outer, layer', outer', shape, shape', -, -⟩ := outer_cases same
  · simp only [finish, none, none']
    cases first : r.head.toExpr? <;> cases second : r'.head.toExpr? <;> simp_all
  · simp only [finish, shape, shape', Option.isSome_none]

/-- Lexemes are all taken if the first of them are, and then the others. -/
theorem feedLexemes_append_eq_some_iff {first rest : List Lexeme} :
    r.feedLexemes (first ++ rest) = some r' ↔
      ∃ mid, r.feedLexemes first = some mid ∧ mid.feedLexemes rest = some r' := by
  induction first generalizing r with
  | nil => simp [feedLexemes]
  | cons l first ih =>
    simp only [List.cons_append, feedLexemes, Option.bind_eq_some_iff, ih]
    tauto

end Reading

/-! ## What has been read can be completed -/

/-- Lexemes after which the operand at the end of a reading is complete. -/
def Head.completion : Head → List Lexeme
  | .missing => [.integer 0]
  | .pathOpen _ | .dotted _ => [.name "x"]
  | .path _ | .operand _ | .member .. => []

namespace Reading

variable {r r' : Reading} {e : Expr}

/-- Lexemes after which a reading is complete: the operand at its end, and every bracket that is open. -/
def completion (r : Reading) : List Lexeme :=
  r.head.completion ++ r.outer.map fun layer => .closing layer.opened.bracket

theorem isReadable_of_mem_completion {lexeme : Lexeme} (member : lexeme ∈ r.completion) : lexeme.isReadable = true := by
  obtain ofHead | closing := List.mem_append.1 member
  · cases shape : r.head <;> simp only [shape, Head.completion, List.mem_singleton, List.not_mem_nil] at ofHead
    all_goals subst ofHead; rfl
  · obtain ⟨layer, -, rfl⟩ := List.mem_map.1 closing
    rfl

/-- The operand at the end of a reading can be completed. -/
theorem exists_operand (r : Reading) :
    ∃ head e, r.feedLexemes r.head.completion = some ⟨r.outer, r.pending, head⟩ ∧ head.toExpr? = some e := by
  obtain ⟨outer, pending, head⟩ := r
  cases head <;> exact ⟨_, _, rfl, rfl⟩

/-- The brackets that are open can be closed after an operand. -/
theorem exists_closed (outer : List Layer) (pending : List Pending) {head : Head} (operand : head.toExpr? = some e) :
    ∃ r', feedLexemes ⟨outer, pending, head⟩ (outer.map fun layer => .closing layer.opened.bracket) = some r'
      ∧ r'.finish.isSome = true := by
  induction outer generalizing pending head e with
  | nil => exact ⟨_, rfl, by simp [finish, operand]⟩
  | cons layer outer ih =>
    have closed : feed ⟨layer :: outer, pending, head⟩ (.closing layer.opened.bracket)
        = some ⟨outer, layer.pending, .operand (layer.opened.complete (Pending.settle 0 pending e).1)⟩ := by
      rw [feed_of_toExpr? operand (by simp) (by simp)]
      simp [feedAfter, closeAfter]
    rw [List.map_cons, feedLexemes_cons closed]
    exact ih layer.pending rfl

/-- Every reading can be completed. -/
theorem exists_finish (r : Reading) : ∃ r', r.feedLexemes r.completion = some r' ∧ r'.finish.isSome = true := by
  obtain ⟨head, e, operand, complete⟩ := r.exists_operand
  obtain ⟨r', closed, finished⟩ := exists_closed r.outer r.pending complete
  exact ⟨r', feedLexemes_append_eq_some_iff.2 ⟨_, operand, closed⟩, finished⟩

end Reading

namespace Lexeme

variable {lexemes : List Lexeme}

/-- Words of some kinds are accepted if they are taken and lead to an expression. -/
theorem accepted_iff (readable : ∀ lexeme ∈ lexemes, lexeme.isReadable = true) :
    Accepted (lexemes.map kind) ↔ ∃ r, Reading.start.feedLexemes lexemes = some r ∧ r.finish.isSome = true := by
  constructor
  · rintro ⟨text, e, read, kinds⟩
    obtain ⟨-, r, fed, finished⟩ := Expr.read_eq_ok_iff.1 read
    obtain ⟨r', fed', same⟩ := Reading.exists_form_eq kinds fed
    exact ⟨r', fed', by rw [Reading.isSome_finish same, finished, Option.isSome_some]⟩
  · rintro ⟨r, fed, finished⟩
    obtain ⟨e, finished⟩ := Option.isSome_iff_exists.1 finished
    obtain ⟨cs, scans⟩ := exists_scans readable
    obtain ⟨scanned, complete⟩ := scans 1 0
    have chars : Scan.scan 1 (String.ofList cs) = Scan.scanFrom 1 0 0 cs := by rw [Scan.scan, String.toList_ofList]
    refine ⟨String.ofList cs, e, Expr.read_eq_ok_iff.2 ?_, ?_⟩
    · rw [chars, scanned]
      exact ⟨complete, r, fed, finished⟩
    · rw [chars, scanned]

/-- Words of some kinds may start an expression if they are taken. -/
theorem viable_iff (readable : ∀ lexeme ∈ lexemes, lexeme.isReadable = true) :
    Viable (lexemes.map kind) ↔ ∃ r, Reading.start.feedLexemes lexemes = some r := by
  constructor
  · rintro ⟨more, text, e, read, kinds⟩
    -- the words of that text need not be the given ones, but have their kinds
    obtain ⟨-, r, fed, -⟩ := Expr.read_eq_ok_iff.1 read
    obtain ⟨first, rest, split, same, -⟩ := List.map_eq_append_iff.1 kinds
    rw [split, Reading.feedLexemes_append_eq_some_iff] at fed
    obtain ⟨mid, fed, -⟩ := fed
    obtain ⟨r', fed', -⟩ := Reading.exists_form_eq same fed
    exact ⟨r', fed'⟩
  · rintro ⟨r, fed⟩
    obtain ⟨r', completed, finished⟩ := r.exists_finish
    refine ⟨r.completion.map kind, ?_⟩
    rw [← List.map_append, accepted_iff]
    · exact ⟨r', Reading.feedLexemes_append_eq_some_iff.2 ⟨r, fed, completed⟩, finished⟩
    · intro lexeme member
      obtain given | more := List.mem_append.1 member
      · exact readable lexeme given
      · exact Reading.isReadable_of_mem_completion more

end Lexeme

/-! ## Where a text is at fault -/

/-- The tokens of a scan stand one after the other. -/
theorem Scan.positions (line position covered : Nat) (cs : List Char) :
    (∀ token ∈ (scanFrom line position covered cs).tokens, position ≤ token.position)
      ∧ (scanFrom line position covered cs).tokens.Pairwise fun token later => token.position < later.position := by
  fun_induction scanFrom line position covered cs with
  | case1 => simp
  | case2 line position covered c rest ih =>
    exact ⟨fun token member => Nat.le_of_succ_le (ih.1 token member), ih.2⟩
  | case3 line position c rest space ih => exact ⟨fun token member => Nat.le_of_succ_le (ih.1 token member), ih.2⟩
  | case4 line position rest newline ih => exact ⟨fun token member => Nat.le_of_succ_le (ih.1 token member), ih.2⟩
  | case5 => simp
  | case6 line position c rest space newline lexeme spelling read ih =>
    constructor
    · intro token member
      obtain rfl | later := List.mem_cons.1 member
      · exact Nat.le_refl _
      · exact Nat.le_of_succ_le (ih.1 token later)
    · exact List.pairwise_cons.2 ⟨fun token later => ih.1 token later, ih.2⟩

/-- A token occurs once in a scan. -/
theorem Scan.nodup_tokens (line : Nat) (text : String) : (Scan.scan line text).tokens.Nodup :=
  (positions line 0 0 text.toList).2.imp fun before same => by
    subst same
    exact Nat.lt_irrefl _ before

/-- Tokens are refused at the first of them that is not taken after those before it. -/
theorem Reading.feedAll_eq_error_iff {r : Reading} {tokens : List Token} {failure : Failure} :
    r.feedAll tokens = .error failure ↔ ∃ before token after mid, tokens = before ++ token :: after
      ∧ r.feedLexemes (before.map Token.lexeme) = some mid ∧ mid.feed token.lexeme = none
      ∧ failure = .unexpectedToken token := by
  induction tokens generalizing r with
  | nil => simp [feedAll]
  | cons first rest ih =>
    rw [feedAll]
    cases fed : r.feed first.lexeme with
    | none =>
      constructor
      · intro refused
        exact ⟨[], first, rest, r, rfl, rfl, fed, (Except.error.inj refused).symm⟩
      · rintro ⟨before, token, after, mid, split, taken, -, rfl⟩
        cases before with
        | nil => rw [(List.cons.inj split).1]
        | cons other before =>
          rw [(List.cons.inj split).1] at fed
          simp [feedLexemes, fed] at taken
    | some next =>
      simp only [ih]
      constructor
      · rintro ⟨before, token, after, mid, rfl, taken, refused, rfl⟩
        exact ⟨first :: before, token, after, mid, rfl, by rwa [List.map_cons, feedLexemes_cons fed], refused, rfl⟩
      · rintro ⟨before, token, after, mid, split, taken, refused, rfl⟩
        cases before with
        | nil =>
          cases taken
          rw [← (List.cons.inj split).1, fed] at refused
          cases refused
        | cons other before =>
          obtain ⟨rfl, rest⟩ := List.cons.inj split
          exact ⟨before, token, after, mid, rest, by rwa [List.map_cons, feedLexemes_cons fed] at taken, refused, rfl⟩

/-- The kinds of the lexemes of some tokens. -/
def Token.kinds (tokens : List Token) : List Lexeme.Kind := (tokens.map Token.lexeme).map Lexeme.kind

namespace Expr

/-- Why a text cannot be read: a token is refused, no word can be read after the last, or the expression is not
complete. -/
theorem read_eq_error_cases {text : String} {failure : Failure} :
    Expr.read text = .error failure ↔ Reading.start.feedAll (Scan.scan 1 text).tokens = .error failure
      ∨ ∃ r, Reading.start.feedLexemes (Scan.scan 1 text).lexemes = some r
        ∧ ((Scan.scan 1 text).failure? = some failure
          ∨ (Scan.scan 1 text).failure? = none ∧ r.finish = none ∧ failure = .unexpectedEnd) := by
  simp only [Expr.read, Scan.lexemes, ← Reading.feedAll_eq_ok_iff]
  cases fed : Reading.start.feedAll (Scan.scan 1 text).tokens with
  | error refused => simp
  | ok r =>
    cases fault : (Scan.scan 1 text).failure? with
    | some lexical => simp
    | none => cases finished : r.finish <;> simp [finished, eq_comm]

/-- A token is refused after those before it if an expression may start with the words before it, but not with that
too. -/
theorem refused_iff {before : List Token} {token : Token}
    (readable : ∀ other ∈ before ++ [token], other.lexeme.isReadable = true) :
    (∃ mid, Reading.start.feedLexemes (before.map Token.lexeme) = some mid ∧ mid.feed token.lexeme = none)
      ↔ Lexeme.Viable (Token.kinds before) ∧ ¬Lexeme.Viable (Token.kinds (before ++ [token])) := by
  have all : ∀ lexeme ∈ (before ++ [token]).map Token.lexeme, lexeme.isReadable = true := List.forall_mem_map.2 readable
  have earlier : ∀ lexeme ∈ before.map Token.lexeme, lexeme.isReadable = true := by
    intro lexeme member
    exact all lexeme (by rw [List.map_append]; exact List.mem_append_left _ member)
  rw [Token.kinds, Token.kinds, Lexeme.viable_iff earlier, Lexeme.viable_iff all, List.map_append]
  constructor
  · rintro ⟨mid, fed, refused⟩
    refine ⟨⟨mid, fed⟩, ?_⟩
    rintro ⟨r, more⟩
    rw [Reading.feedLexemes_append fed] at more
    simp [Reading.feedLexemes, refused] at more
  · rintro ⟨⟨mid, fed⟩, stuck⟩
    refine ⟨mid, fed, ?_⟩
    cases step : mid.feed token.lexeme with
    | none => rfl
    | some next =>
      refine absurd ⟨next, ?_⟩ stuck
      rw [Reading.feedLexemes_append fed]
      exact Reading.feedLexemes_cons step []

/-- A token of a text is reported if an expression may start with the words before it, but not with that too. -/
theorem read_eq_unexpectedToken_iff {text : String} {before after : List Token} {token : Token}
    (split : (Scan.scan 1 text).tokens = before ++ token :: after) :
    Expr.read text = .error (.unexpectedToken token)
      ↔ Lexeme.Viable (Token.kinds before) ∧ ¬Lexeme.Viable (Token.kinds (before ++ [token])) := by
  have readable : ∀ other ∈ before ++ [token], other.lexeme.isReadable = true := by
    intro other member
    have scanned := List.mem_append_left after member
    rw [List.append_assoc, List.singleton_append, ← split] at scanned
    exact Scan.isReadable_of_mem scanned
  rw [← refused_iff readable, read_eq_error_cases]
  constructor
  · rintro (refused | ⟨r, -, lexical | ⟨-, -, ended⟩⟩)
    · obtain ⟨before', token', after', mid, split', taken, stuck, same⟩ := Reading.feedAll_eq_error_iff.1 refused
      obtain rfl := Failure.unexpectedToken.inj same
      -- The token occurs once, so the words before it are the same.
      have once := Scan.nodup_tokens 1 text
      rw [split, List.nodup_middle, List.nodup_cons, List.mem_append, not_or] at once
      obtain ⟨rfl, -, -⟩ := (List.append_cons_inj_of_notMem once.1.1 once.1.2).1 (split.symm.trans split')
      exact ⟨mid, taken, stuck⟩
    · cases Scan.isLexical_of_failure lexical
    · cases ended
  · rintro ⟨mid, taken, stuck⟩
    exact .inl (Reading.feedAll_eq_error_iff.2 ⟨before, token, after, mid, split, taken, stuck, rfl⟩)

/-- All tokens of a text are taken if an expression may start with its words. -/
theorem feedLexemes_scan_iff (text : String) :
    (∃ r, Reading.start.feedLexemes (Scan.scan 1 text).lexemes = some r)
      ↔ Lexeme.Viable (Token.kinds (Scan.scan 1 text).tokens) := by
  exact (Lexeme.viable_iff fun _ => Scan.isReadable_of_mem_lexemes).symm

/-- The end of a text is reported if an expression may start with its words, but they are none. -/
theorem read_eq_unexpectedEnd_iff {text : String} :
    Expr.read text = .error .unexpectedEnd ↔ (Scan.scan 1 text).failure? = none
      ∧ Lexeme.Viable (Token.kinds (Scan.scan 1 text).tokens)
      ∧ ¬Lexeme.Accepted (Token.kinds (Scan.scan 1 text).tokens) := by
  rw [← feedLexemes_scan_iff, Token.kinds, ← Scan.lexemes,
    Lexeme.accepted_iff fun _ => Scan.isReadable_of_mem_lexemes, read_eq_error_cases]
  constructor
  · rintro (refused | ⟨r, fed, lexical | ⟨complete, unfinished, -⟩⟩)
    · obtain ⟨_, _, _, _, _, _, _, same⟩ := Reading.feedAll_eq_error_iff.1 refused
      cases same
    · cases Scan.isLexical_of_failure lexical
    · refine ⟨complete, ⟨r, fed⟩, ?_⟩
      rintro ⟨r', fed', finished⟩
      obtain rfl := Option.some.inj (fed.symm.trans fed')
      simp [unfinished] at finished
  · rintro ⟨complete, ⟨r, fed⟩, unfinished⟩
    refine .inr ⟨r, fed, .inr ⟨complete, ?_, rfl⟩⟩
    cases finished : r.finish with
    | none => rfl
    | some e => exact absurd ⟨r, fed, by rw [finished, Option.isSome_some]⟩ unfinished

/-- A word that cannot be read is reported if an expression may start with the words before it. -/
theorem read_eq_lexical_iff {text : String} {failure : Failure} (lexical : failure.IsLexical text.toList) :
    Expr.read text = .error failure ↔ (Scan.scan 1 text).failure? = some failure
      ∧ Lexeme.Viable (Token.kinds (Scan.scan 1 text).tokens) := by
  rw [← feedLexemes_scan_iff, read_eq_error_cases]
  constructor
  · rintro (refused | ⟨r, fed, fault | ⟨-, -, rfl⟩⟩)
    · obtain ⟨token, -, rfl⟩ := Reading.exists_refused refused
      cases lexical
    · exact ⟨fault, r, fed⟩
    · cases lexical
  · rintro ⟨fault, r, fed⟩
    exact .inr ⟨r, fed, .inl fault⟩

/-- A text that cannot be read is reported at its first fault. A token is reported, by what it holds and where it
stands, exactly if words of the kinds before it may start an expression and words of the kinds up to it may not; the
end, exactly if the whole text is cut into words that may start an expression, but are none; and a word that cannot be
read, exactly if the words before it may start an expression. Nothing else is reported, and all of it as wrong syntax
but an integer that is written with more digits than are read. -/
theorem read_eq_error_iff (text : String) :
    (∀ before token after, (Scan.scan 1 text).tokens = before ++ token :: after →
      (Expr.read text = .error (.unexpectedToken token)
        ↔ Lexeme.Viable (Token.kinds before) ∧ ¬Lexeme.Viable (Token.kinds (before ++ [token]))))
      ∧ (Expr.read text = .error .unexpectedEnd ↔ (Scan.scan 1 text).failure? = none
        ∧ Lexeme.Viable (Token.kinds (Scan.scan 1 text).tokens)
        ∧ ¬Lexeme.Accepted (Token.kinds (Scan.scan 1 text).tokens))
      ∧ (∀ failure : Failure, failure.IsLexical text.toList →
        (Expr.read text = .error failure ↔ (Scan.scan 1 text).failure? = some failure
          ∧ Lexeme.Viable (Token.kinds (Scan.scan 1 text).tokens)))
      ∧ (∀ failure, Expr.read text = .error failure →
        ((∃ token ∈ (Scan.scan 1 text).tokens, failure = .unexpectedToken token
          ∧ failure.message
            = "Syntax error at '" ++ token.lexeme.shown ++ "' (position " ++ toString token.position ++ ")")
        ∨ (failure = .unexpectedEnd ∧ failure.message = "Syntax error at end of input")
        ∨ failure.IsLexical text.toList)
        ∧ (failure.kind = .parse ∨ failure.ExceedsDigits text.toList ∧ failure.kind = .badValue)) := by
  refine ⟨fun before token after split => read_eq_unexpectedToken_iff split, read_eq_unexpectedEnd_iff,
    fun failure lexical => read_eq_lexical_iff lexical, fun failure fault => ⟨?_, ?_⟩⟩
  · cases isUnread_of_read fault with
    | unexpectedToken scanned => exact .inl ⟨_, scanned, rfl, rfl⟩
    | unexpectedEnd => exact .inr (.inl ⟨rfl, rfl⟩)
    | lexical lexical => exact .inr (.inr lexical)
  · exact (kind_of_read fault).imp_right fun exceeds => ⟨exceeds, exceeds.kind⟩

/-- No range is a bound of another, so the second `..` is at fault, and not the character after it that starts no word;
that is reported where words may still come, as long as there are any. -/
theorem read_eq_error_iff_ranges :
    (Expr.read "a..b..c @" = .error (.unexpectedToken ⟨.range false, ['.', '.'], 4, 1⟩)
        ∧ (Scan.scan 1 "a..b..c @").failure? = some (.illegalCharacter '@' 8)
        ∧ Lexeme.Viable [.name, .range false, .name]
        ∧ ¬Lexeme.Viable [.name, .range false, .name, .range false])
      ∧ (Expr.read "a..b @" = .error (.illegalCharacter '@' 5))
      ∧ Expr.read "a.." = .error .unexpectedEnd ∧ ¬Lexeme.Accepted [.name, .range false] := by
  obtain ⟨token, -, -, -⟩ := read_eq_error_iff "a..b..c @"
  obtain ⟨-, -, word, -⟩ := read_eq_error_iff "a..b @"
  obtain ⟨-, ended, -, -⟩ := read_eq_error_iff "a.."
  have second : (Scan.scan 1 "a..b..c @").tokens
      = [⟨.name "a", ['a'], 0, 1⟩, ⟨.range false, ['.', '.'], 1, 1⟩, ⟨.name "b", ['b'], 3, 1⟩]
        ++ ⟨.range false, ['.', '.'], 4, 1⟩ :: [⟨.name "c", ['c'], 6, 1⟩] := by rfl
  have refused : Expr.read "a..b..c @" = .error (.unexpectedToken ⟨.range false, ['.', '.'], 4, 1⟩) := by rfl
  obtain ⟨before, upTo⟩ := (token _ _ _ second).1 refused
  have incomplete : Expr.read "a.." = .error .unexpectedEnd := by rfl
  obtain ⟨-, -, none⟩ := ended.1 incomplete
  have fault : (Scan.scan 1 "a..b @").failure? = some (.illegalCharacter '@' 5) := by rfl
  exact ⟨⟨refused, by rfl, before, upTo⟩, (word _ (.illegalCharacter '@' 5)).2 ⟨fault, before⟩, incomplete, none⟩

/-- A text of digits alone cannot be read if they are too many. -/
theorem read_of_many_digits {row : List Char} (ascii : AsciiDigits row) (many : Text.maxDigits < row.length) :
    (Scan.scan 1 (String.ofList row)).tokens = []
      ∧ Expr.read (String.ofList row) = .error (.tooManyDigits row.length 0) := by
  have parts : Word.NumberParts row [] [] [] :=
    ⟨Word.takeWhile_digits ascii.isDigitOrGap rfl, rfl, rfl⟩
  have number : Word.readNumber 0 row = .error (.tooManyDigits row.length 0) := by
    have ends := parts.readNumber_eq 0
    simp only [List.append_nil] at ends
    rw [ends, Word.endNumber, ascii.digitCount_eq]
    exact if_pos many
  cases row with
  | nil => cases many
  | cons c rest =>
    have digit := ascii.isDigit c List.mem_cons_self
    obtain ⟨space, newline⟩ := Word.notBlank_of_digit (ascii c List.mem_cons_self)
    have scan : Scan.scan 1 (String.ofList (c :: rest)) = ⟨[], some (.tooManyDigits (c :: rest).length 0), 1⟩ := by
      rw [Scan.scan, String.toList_ofList, Scan.scanFrom, if_neg (by simp [space]), if_neg newline,
        Word.read_of_digit digit, number]
    simp only [Expr.read, scan, Reading.feedAll, and_self]

/-- An integer with too many digits is not reported as one that is too large, nor as any wrong syntax, although an
expression may start with it. -/
theorem read_eq_error_iff_digits :
    Lexeme.Viable (Token.kinds (Scan.scan 1 (String.ofList (List.replicate 4301 '9'))).tokens)
      ∧ Expr.read (String.ofList (List.replicate 4301 '9')) = .error (.tooManyDigits 4301 0)
      ∧ (Failure.tooManyDigits 4301 0).kind ≠ .parse := by
  have ascii : AsciiDigits (List.replicate 4301 '9') := fun c member => by
    rw [List.eq_of_mem_replicate member]
    decide
  have many : Text.maxDigits < (List.replicate 4301 '9').length := by
    rw [List.length_replicate]
    decide
  obtain ⟨none, fault⟩ := read_of_many_digits ascii many
  rw [List.length_replicate] at fault
  refine ⟨?_, fault, by decide⟩
  rw [none]
  exact ⟨[.integer], "1", .literal (.int 1), rfl, rfl⟩

end Expr

end NamedExpr
