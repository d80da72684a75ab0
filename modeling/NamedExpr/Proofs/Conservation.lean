import NamedExpr.Proofs.RoundTrip
/-!
# Reading keeps every word

A reading holds the lexemes it has taken, each once and in their order (`Reading.lexemes`); only a comma at the end of a
list of arguments is dropped, when its bracket closes. `Reading.takes_feed` says what one lexeme adds,
`Reading.Holds.feedLexemes` carries it along a row of them, and for the whole of a text it ties the tree to the words
that it was read from (`Expr.scan_write_of_read`).
-/

namespace NamedExpr

namespace Lexeme

/-- Whether a lexeme closes a bracket. -/
def isClosing : Lexeme → Bool
  | .closing _ => true
  | _ => false

/-- A row of lexemes without every comma that is directly followed by a closing bracket. -/
def withoutTrailingCommas : List Lexeme → List Lexeme
  | [] => []
  | lexeme :: rest =>
    if lexeme = .comma ∧ rest.head?.any isClosing = true then withoutTrailingCommas rest
    else lexeme :: withoutTrailingCommas rest

/-- A lexeme that is added at the end drops nothing, unless it closes a bracket after a comma. -/
theorem withoutTrailingCommas_concat {fed : List Lexeme} {lexeme : Lexeme}
    (keeps : ¬(fed.getLast? = some .comma ∧ lexeme.isClosing = true)) :
    withoutTrailingCommas (fed ++ [lexeme]) = withoutTrailingCommas fed ++ [lexeme] := by
  induction fed with
  | nil => simp [withoutTrailingCommas]
  | cons first fed ih =>
    cases fed with
    | nil =>
      have : ¬(first = .comma ∧ lexeme.isClosing = true) := by simpa using keeps
      simp [withoutTrailingCommas, this]
    | cons second fed =>
      rw [List.getLast?_cons_cons] at keeps
      have rest := ih keeps
      rw [List.cons_append, withoutTrailingCommas, rest, withoutTrailingCommas.eq_2 first]
      by_cases dropped : first = .comma ∧ second.isClosing = true <;> simp [dropped]

/-- A bracket that closes after a comma drops the comma. -/
theorem withoutTrailingCommas_concat_comma (fed : List Lexeme) (b : Bracket) :
    withoutTrailingCommas (fed ++ [.comma] ++ [.closing b]) = withoutTrailingCommas fed ++ [.closing b] := by
  induction fed with
  | nil => simp [withoutTrailingCommas, isClosing]
  | cons first fed ih =>
    cases fed with
    | nil => simp [isClosing, withoutTrailingCommas]
    | cons second fed =>
      rw [List.cons_append, List.cons_append, withoutTrailingCommas, ih, withoutTrailingCommas.eq_2 first]
      by_cases dropped : first = .comma ∧ second.isClosing = true <;> simp [dropped]

end Lexeme

/-! ## The lexemes that a reading has taken -/

namespace Pending

/-- The lexemes up to a pending operator, that of the operator included. -/
def lexemes : Pending → List Lexeme
  | .unary op => [Expr.prefixLexeme op]
  | .reference => [.ampersand]
  | .binary op left => left.lexemes ++ [.operator op]
  | .range start inclusive => start.lexemes ++ [.range inclusive]

/-- The lexemes of operators that wait. The innermost operator stands first, its lexemes last. -/
def lexemesAll (pending : List Pending) : List Lexeme := pending.reverse.flatMap lexemes

@[simp]
theorem lexemesAll_nil : lexemesAll [] = [] := rfl

@[simp]
theorem lexemesAll_cons (p : Pending) (rest : List Pending) :
    lexemesAll (p :: rest) = lexemesAll rest ++ p.lexemes := by
  simp [lexemesAll]

/-- The right operand of a pending operator stands after it. -/
theorem lexemes_complete (p : Pending) (e : Expr) : (p.complete e).lexemes = p.lexemes ++ e.lexemes := by
  cases p <;> simp [complete, lexemes, Expr.lexemes]

/-- Settling moves no lexeme. -/
theorem lexemes_settle (least : Nat) (pending : List Pending) (e : Expr) :
    lexemesAll (settle least pending e).2 ++ (settle least pending e).1.lexemes = lexemesAll pending ++ e.lexemes := by
  fun_induction settle least pending e with
  | case1 => rfl
  | case2 p rest e binds ih => rw [ih, lexemes_complete, lexemesAll_cons, List.append_assoc]
  | case3 => rfl

theorem lexemes_settle_zero (pending : List Pending) (e : Expr) :
    (settle 0 pending e).1.lexemes = lexemesAll pending ++ e.lexemes := by
  have none : (settle 0 pending e).2 = [] := by
    fun_induction settle 0 pending e with
    | case1 => rfl
    | case2 _ _ _ _ ih => exact ih
    | case3 _ _ _ loose => exact absurd (Nat.zero_le _) loose
  have whole := lexemes_settle 0 pending e
  rwa [none, lexemesAll_nil, List.nil_append] at whole

end Pending

/-- The lexemes before the arguments of a list, its opening bracket included. -/
def Owner.lexemes : Owner → List Lexeme
  | .method receiver name => receiver.lexemes ++ [.dot, .name name, .opening .round]
  | .function segments => Expr.pathLexemes segments ++ [.opening .round]
  | .array => [.opening .square]

/-- The lexemes of an open bracket, with those of the arguments that have ended in a comma. -/
def Opened.lexemes : Opened → List Lexeme
  | .paren => [.opening .round]
  | .index target => target.lexemes ++ [.opening .square]
  | .arguments owner done => owner.lexemes ++ done.reverse.flatMap fun e => e.lexemes ++ [.comma]

/-- The lexemes up to an open bracket, from the one around it on. -/
def Layer.lexemes (layer : Layer) : List Lexeme := Pending.lexemesAll layer.pending ++ layer.opened.lexemes

/-- The lexemes of the operand at the end of a reading. -/
def Head.lexemes : Head → List Lexeme
  | .missing => []
  | .path segments => Expr.pathLexemes segments
  | .pathOpen segments => Expr.pathLexemes segments ++ [.pathSeparator]
  | .operand e => e.lexemes
  | .dotted e => e.lexemes ++ [.dot]
  | .member e name => e.lexemes ++ [.dot, .name name]

/-- The lexemes that a reading has taken, without the commas it has dropped. -/
def Reading.lexemes (r : Reading) : List Lexeme :=
  r.outer.reverse.flatMap Layer.lexemes ++ Pending.lexemesAll r.pending ++ r.head.lexemes

/-- Whether the last lexeme that a reading has taken is a comma. -/
def Reading.afterComma : Reading → Bool
  | ⟨⟨_, .arguments _ (_ :: _)⟩ :: _, [], .missing⟩ => true
  | _ => false

theorem Expr.lexemesAll_concat (es : List Expr) (e : Expr) :
    lexemesAll (es ++ [e]) = es.flatMap (fun e => e.lexemes ++ [.comma]) ++ e.lexemes := by
  induction es with
  | nil => simp [lexemesAll]
  | cons first es ih =>
    have list : lexemesAll (first :: (es ++ [e])) = first.lexemes ++ (.comma :: lexemesAll (es ++ [e])) := by
      cases es <;> rfl
    rw [List.cons_append, list, ih]
    simp

theorem Expr.pathLexemes_concat {segments : List String} (some : segments ≠ []) (n : String) :
    pathLexemes (segments ++ [n]) = pathLexemes segments ++ [.pathSeparator, .name n] := by
  induction segments with
  | nil => exact absurd rfl some
  | cons s segments ih =>
    cases segments with
    | nil => rfl
    | cons t segments =>
      have rest := ih (by simp)
      simp only [List.cons_append, pathLexemes] at rest ⊢
      rw [rest]

theorem Owner.lexemes_complete (owner : Owner) (args : List Expr) :
    (owner.complete args).lexemes = owner.lexemes ++ Expr.lexemesAll args ++ [.closing owner.bracket] := by
  cases owner <;> simp [Owner.complete, Owner.lexemes, Owner.bracket, Expr.lexemes]

/-- A bracket that closes after an expression keeps what stands in it. -/
theorem Opened.lexemes_complete (opened : Opened) (e : Expr) :
    (opened.complete e).lexemes = opened.lexemes ++ e.lexemes ++ [.closing opened.bracket] := by
  cases opened with
  | paren => simp [Opened.complete, Opened.lexemes, Opened.bracket, Expr.lexemes]
  | index target => simp [Opened.complete, Opened.lexemes, Opened.bracket, Expr.lexemes]
  | arguments owner done =>
    rw [Opened.complete, Owner.lexemes_complete, List.reverse_cons, Expr.lexemesAll_concat]
    simp [Opened.lexemes, Opened.bracket]

theorem Head.lexemes_of_toExpr? {head : Head} {e : Expr} (operand : head.toExpr? = some e) :
    head.lexemes = e.lexemes := by
  cases head with
  | path | operand =>
    obtain rfl := Option.some.inj operand
    rfl
  | member x name =>
    obtain rfl := Option.some.inj operand
    rfl
  | missing | pathOpen | dotted => cases operand

namespace Reading

variable {r next : Reading} {lexeme : Lexeme} {e : Expr}

/-- What taking a lexeme adds to a reading: the lexeme, instead of the comma before it if it closes a list of
arguments. -/
structure Takes (r : Reading) (lexeme : Lexeme) (next : Reading) : Prop where
  lexemes : if r.afterComma = true ∧ lexeme.isClosing = true
    then ∃ before, r.lexemes = before ++ [.comma] ∧ next.lexemes = before ++ [lexeme]
    else next.lexemes = r.lexemes ++ [lexeme]
  afterComma : next.afterComma = true ↔ lexeme = .comma

theorem afterComma_eq_false (operand : r.head ≠ .missing) : r.afterComma = false := by
  obtain ⟨outer, pending, head⟩ := r
  cases head with
  | missing => exact absurd rfl operand
  | _ => simp [afterComma]

/-- A lexeme that is added. -/
theorem Takes.of_add (adds : next.lexemes = r.lexemes ++ [lexeme])
    (keeps : lexeme.isClosing = true → r.afterComma = false) (afterComma : next.afterComma = true ↔ lexeme = .comma) :
    r.Takes lexeme next where
  lexemes := by
    rw [if_neg]
    · exact adds
    · rintro ⟨after, closing⟩
      rw [keeps closing] at after
      cases after
  afterComma := afterComma

theorem takes_literal (missing : r.head = .missing) {value : Literal} (same : value.lexeme = lexeme)
    (open_ : lexeme.isClosing = false) (noComma : lexeme ≠ .comma) : r.Takes lexeme (r.literal value) := by
  apply Takes.of_add
  · simp [lexemes, literal, missing, Head.lexemes, Expr.lexemes, same]
  · simp [open_]
  · simp [afterComma_eq_false, literal, noComma]

theorem takes_await (missing : r.head = .missing) {p : Pending} (adds : p.lexemes = [lexeme])
    (open_ : lexeme.isClosing = false) (noComma : lexeme ≠ .comma) : r.Takes lexeme (r.await p) := by
  apply Takes.of_add
  · simp [lexemes, await, missing, Head.lexemes, adds]
  · simp [open_]
  · simp [afterComma, await, noComma]

/-- An open bracket starts a layer of its own; what stands before it as an operand belongs to it. -/
theorem takes_openBracket {opened : Opened} {b : Bracket}
    (adds : opened.lexemes = r.head.lexemes ++ [.opening b])
    (empty : ∀ owner done, opened = .arguments owner done → done = []) :
    r.Takes (.opening b) (r.openBracket opened) := by
  apply Takes.of_add
  · simp [lexemes, openBracket, Layer.lexemes, Head.lexemes, adds]
  · simp [Lexeme.isClosing]
  · cases opened with
    | paren | index => simp [afterComma, openBracket]
    | arguments owner done =>
      obtain rfl := empty owner done rfl
      simp [afterComma, openBracket]

theorem takes_closeArguments {b : Bracket} (missing : r.head = .missing) (closed : r.closeArguments b = some next) :
    r.Takes (.closing b) next := by
  obtain ⟨outer, pending, head⟩ := r
  obtain rfl := missing
  unfold closeArguments at closed
  split at closed
  · rename_i waiting owner done outer none layers
    obtain rfl := none
    obtain rfl := layers
    split_ifs at closed with bracket
    cases closed
    subst bracket
    constructor
    · cases done with
      | nil =>
        simp [afterComma, lexemes, Layer.lexemes, Head.lexemes, Opened.lexemes, Owner.lexemes_complete, Expr.lexemesAll]
      | cons last done =>
        rw [if_pos ⟨rfl, rfl⟩]
        refine ⟨outer.reverse.flatMap Layer.lexemes ++ (Pending.lexemesAll waiting
          ++ (owner.lexemes ++ Expr.lexemesAll (last :: done).reverse)), ?_, ?_⟩
        · simp [lexemes, Layer.lexemes, Head.lexemes, Opened.lexemes, Expr.lexemesAll_concat]
        · simp [lexemes, Head.lexemes, Owner.lexemes_complete]
    · simp [afterComma_eq_false]
  · cases closed

theorem takes_feedMissing (missing : r.head = .missing) (fed : r.feedMissing lexeme = some next) :
    r.Takes lexeme next := by
  unfold feedMissing at fed
  split at fed
  all_goals first | cases fed | skip
  · exact takes_literal missing rfl rfl (by simp)
  · exact takes_literal missing rfl rfl (by simp)
  · exact takes_literal missing rfl rfl (by simp)
  · exact takes_literal missing rfl rfl (by simp)
  · exact takes_literal missing rfl rfl (by simp)
  · apply Takes.of_add
    · simp [lexemes, missing, Head.lexemes, Expr.pathLexemes]
    · simp [Lexeme.isClosing]
    · simp [afterComma_eq_false]
  · exact takes_await missing rfl rfl (by simp)
  · exact takes_await missing rfl rfl (by simp)
  · exact takes_await missing rfl rfl (by simp)
  · exact takes_openBracket (by simp [missing, Head.lexemes, Opened.lexemes]) (by simp)
  · exact takes_openBracket (by simp [missing, Head.lexemes, Opened.lexemes, Owner.lexemes]) (by simp)
  · exact takes_closeArguments missing fed

theorem lexemes_of_operand (operand : r.head.toExpr? = some e) :
    r.lexemes = r.outer.reverse.flatMap Layer.lexemes ++ Pending.lexemesAll r.pending ++ e.lexemes := by
  rw [lexemes, Head.lexemes_of_toExpr? operand]

theorem afterComma_of_operand (operand : r.head.toExpr? = some e) : r.afterComma = false := by
  apply afterComma_eq_false
  rintro missing
  rw [missing] at operand
  cases operand

theorem takes_nextArgument (operand : r.head.toExpr? = some e) (went : r.nextArgument e = some next) :
    r.Takes .comma next := by
  unfold nextArgument at went
  split at went
  · rename_i waiting owner done outer layers
    cases went
    apply Takes.of_add
    · rw [lexemes_of_operand operand]
      simp [lexemes, layers, Layer.lexemes, Opened.lexemes, Head.lexemes, Pending.lexemes_settle_zero]
    · simp [Lexeme.isClosing]
    · simp [afterComma]
  · cases went

theorem takes_closeAfter (operand : r.head.toExpr? = some e) {b : Bracket} (closed : r.closeAfter b e = some next) :
    r.Takes (.closing b) next := by
  unfold closeAfter at closed
  split at closed
  · rename_i waiting opened outer layers
    split_ifs at closed with bracket
    cases closed
    subst bracket
    apply Takes.of_add
    · rw [lexemes_of_operand operand]
      simp [lexemes, layers, Layer.lexemes, Head.lexemes, Pending.lexemes_settle_zero, Opened.lexemes_complete]
    · simp [afterComma_of_operand operand]
    · simp [afterComma_eq_false]
  · cases closed

theorem takes_feedAfter (operand : r.head.toExpr? = some e) (fed : r.feedAfter e lexeme = some next) :
    r.Takes lexeme next := by
  unfold feedAfter at fed
  split at fed
  · cases fed
    apply Takes.of_add
    · rw [lexemes_of_operand operand]
      simp [lexemes, Head.lexemes]
    · simp [Lexeme.isClosing]
    · simp [afterComma_eq_false]
  · cases fed
    exact takes_openBracket (by rw [Head.lexemes_of_toExpr? operand, Opened.lexemes]) (by simp)
  · rename_i op
    cases fed
    apply Takes.of_add
    · rw [lexemes_of_operand operand, List.append_assoc _ _ e.lexemes, ← Pending.lexemes_settle op.readingLevel]
      simp [lexemes, Head.lexemes, Pending.lexemes]
    · simp [Lexeme.isClosing]
    · simp [afterComma]
  · rename_i inclusive
    split at fed
    · rename_i first settled
      cases fed
      apply Takes.of_add
      · rw [lexemes_of_operand operand, List.append_assoc _ _ e.lexemes, ← Pending.lexemes_settle 1, settled]
        simp [lexemes, Head.lexemes, Pending.lexemes]
      · simp [Lexeme.isClosing]
      · simp [afterComma]
    · cases fed
  · exact takes_nextArgument operand fed
  · exact takes_closeAfter operand fed
  · cases fed

/-- Every lexeme that is taken is added. -/
theorem takes_feed (valid : r.Valid) (fed : r.feed lexeme = some next) : r.Takes lexeme next := by
  have head := valid.head
  unfold feed at fed
  split at fed
  · rename_i shape
    exact takes_feedMissing shape fed
  · rename_i shape
    cases fed
    apply Takes.of_add
    · simp [lexemes, shape, Head.lexemes]
    · simp [Lexeme.isClosing]
    · simp [afterComma_eq_false]
  · rename_i shape
    cases fed
    exact takes_openBracket (by simp [shape, Opened.lexemes, Owner.lexemes, Head.lexemes]) (by simp)
  · rename_i shape _ _
    exact takes_feedAfter (by rw [shape]; rfl) fed
  · rename_i segments n shape
    cases fed
    have some : segments ≠ [] := by
      rintro rfl
      rw [shape] at head
      cases head
    apply Takes.of_add
    · simp [lexemes, shape, Head.lexemes, Expr.pathLexemes_concat some]
    · simp [Lexeme.isClosing]
    · simp [afterComma_eq_false]
  · cases fed
  · rename_i shape
    exact takes_feedAfter (by rw [shape]; rfl) fed
  · rename_i shape
    cases fed
    apply Takes.of_add
    · simp [lexemes, shape, Head.lexemes]
    · simp [Lexeme.isClosing]
    · simp [afterComma_eq_false]
  · cases fed
  · rename_i shape
    cases fed
    exact takes_openBracket (by simp [shape, Opened.lexemes, Owner.lexemes, Head.lexemes]) (by simp)
  · rename_i shape _
    exact takes_feedAfter (by rw [shape]; rfl) fed

/-- A reading holds the lexemes of a row, without the commas at the end of lists. -/
structure Holds (r : Reading) (fed : List Lexeme) : Prop where
  lexemes : Lexeme.withoutTrailingCommas fed = r.lexemes
  afterComma : r.afterComma = true ↔ fed.getLast? = some .comma

theorem holds_start : start.Holds [] := ⟨rfl, by simp [start, afterComma]⟩

theorem Holds.takes {fed : List Lexeme} (holds : r.Holds fed) (takes : r.Takes lexeme next) :
    next.Holds (fed ++ [lexeme]) := by
  constructor
  · have lexemes := takes.lexemes
    split_ifs at lexemes with drops
    · obtain ⟨after, closes⟩ := drops
      obtain ⟨before, there, here⟩ := lexemes
      obtain ⟨fed, rfl⟩ := List.getLast?_eq_some_iff.1 (holds.afterComma.1 after)
      have kept := holds.lexemes
      rw [Lexeme.withoutTrailingCommas_concat (by simp [Lexeme.isClosing]), there, List.append_cancel_right_eq] at kept
      cases lexeme with
      | closing b => rw [Lexeme.withoutTrailingCommas_concat_comma, kept, here]
      | _ => cases closes
    · rw [Lexeme.withoutTrailingCommas_concat, holds.lexemes, lexemes]
      rwa [← holds.afterComma]
  · rw [takes.afterComma, List.getLast?_concat, Option.some.injEq]

/-- A row of lexemes that is taken is added to what a reading holds. -/
theorem Holds.feedLexemes {fed more : List Lexeme} (holds : r.Holds fed) (valid : r.Valid)
    (readable : ∀ lexeme ∈ more, lexeme.isReadable = true) (taken : r.feedLexemes more = some next) :
    next.Holds (fed ++ more) := by
  induction more generalizing r fed with
  | nil =>
    cases taken
    rwa [List.append_nil]
  | cons lexeme more ih =>
    obtain ⟨first, others⟩ := List.forall_mem_cons.1 readable
    rw [Reading.feedLexemes, Option.bind_eq_some_iff] at taken
    obtain ⟨mid, step, taken⟩ := taken
    rw [List.append_cons]
    exact ih (holds.takes (takes_feed valid step)) (valid.feed first step) others taken

/-- The expression of a reading that is complete has the lexemes that the reading holds. -/
theorem lexemes_of_finish (finished : r.finish = some e) : e.lexemes = r.lexemes := by
  unfold finish at finished
  split at finished
  · rename_i x outer operand
    cases finished
    rw [Pending.lexemes_settle_zero, lexemes, outer, Head.lexemes_of_toExpr? operand]
    rfl
  · cases finished

end Reading

namespace Expr

/-- The lexemes of the expression that a text is read as are those of the text, without the commas at the end of
lists. -/
theorem lexemes_of_read {text : String} {e : Expr} (read : Expr.read text = .ok e) :
    e.lexemes = Lexeme.withoutTrailingCommas (Scan.scan 1 text).lexemes := by
  obtain ⟨-, r, fed, finished⟩ := read_eq_ok_iff.1 read
  have holds := Reading.holds_start.feedLexemes Reading.valid_start (fun _ => Scan.isReadable_of_mem_lexemes) fed
  rw [Reading.lexemes_of_finish finished, ← holds.lexemes, List.nil_append]

/-- Reading loses, adds and moves no word. A text that is read as an expression is cut into words to its end, and so is
the text that is written for the expression; and that has the same words, with the same meaning and in the same order,
once every comma that stands directly before a closing bracket is taken out of the first. -/
theorem scan_write_of_read {text : String} {e : Expr} (read : Expr.read text = .ok e) :
    e.write? = .ok e.write
      ∧ ∃ tokens written, (Scan.scan 1 text).toTokens = .ok tokens ∧ (Scan.scan 1 e.write).toTokens = .ok written
        ∧ written.map Token.lexeme = Lexeme.withoutTrailingCommas (tokens.map Token.lexeme) := by
  have readable := isReadable_of_read read
  obtain ⟨scanned, complete⟩ := scan_write (isReadable_iff.1 readable).1 1
  refine ⟨write?_eq_ok readable, (Scan.scan 1 text).tokens, (Scan.scan 1 e.write).tokens, ?_, ?_, ?_⟩
  · simp only [Scan.toTokens, (read_eq_ok_iff.1 read).1]
  · simp only [Scan.toTokens, complete]
  · exact scanned.trans (lexemes_of_read read)

/-- Suffixes, underscores and escapes are in the meaning of words already; the commas that close lists are dropped. -/
theorem scan_write_of_read_commas :
    let e := Expr.methodCall (.call ["f"] [.literal (.int 10), .array [.literal (.str "\t")]]) "g" []
    Expr.read "f(1_0u8, [ \"\\t\", ],).g( )" = .ok e ∧ e.write = "f(10, [\"\\t\"]).g()"
      ∧ ∃ tokens written, (Scan.scan 1 "f(1_0u8, [ \"\\t\", ],).g( )").toTokens = .ok tokens
        ∧ (Scan.scan 1 e.write).toTokens = .ok written ∧ tokens.length = 14
        ∧ written.map Token.lexeme = Lexeme.withoutTrailingCommas (tokens.map Token.lexeme) := by
  intro e
  have read : Expr.read "f(1_0u8, [ \"\\t\", ],).g( )" = .ok e := by rfl
  obtain ⟨-, tokens, written, scanned, scanned', same⟩ := scan_write_of_read read
  have counted : (Scan.scan 1 "f(1_0u8, [ \"\\t\", ],).g( )").toTokens.map List.length = .ok 14 := by rfl
  rw [scanned] at counted
  exact ⟨read, by rfl, tokens, written, scanned, scanned', Except.ok.inj counted, same⟩

end Expr

end NamedExpr
