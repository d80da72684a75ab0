import NamedExpr.Proofs.Words
/-!
# Scanning a written expression

The text of an expression scans to the lexemes of its tree, one for each literal, name, operator and bracket. A
text is cut at its longest words, so at each place where two parts of a text meet, the first must not go on into
the second: `1..2` is no float, `!` is followed by no `=`, `&` by no `&`. `scans_write` therefore carries the text
that follows, which must end a word (`EndsWord`), and its lexemes.
-/

namespace NamedExpr

namespace Scan

/-- The lexemes of the tokens of a scan. -/
def lexemes (s : Scan) : List Lexeme := s.tokens.map Token.lexeme

/-- Characters that belong to a word that is read already are passed over. -/
theorem scanFrom_covered (line position : Nat) (covered rest : List Char) :
    scanFrom line position covered.length (covered ++ rest) = scanFrom line (position + covered.length) 0 rest := by
  induction covered generalizing position with
  | nil => rfl
  | cons c covered ih =>
    rw [List.length_cons, List.cons_append, scanFrom, ih, Nat.add_assoc, Nat.add_comm 1]

/-- Every token of a scan has a lexeme that a text can hold. -/
theorem isReadable_of_mem {line position covered : Nat} {cs : List Char} {token : Token}
    (h : token ∈ (scanFrom line position covered cs).tokens) : token.lexeme.isReadable = true := by
  fun_induction scanFrom line position covered cs with
  | case1 => cases h
  | case2 _ _ _ _ _ ih => exact ih h
  | case3 _ _ _ _ _ ih => exact ih h
  | case4 _ _ _ _ ih => exact ih h
  | case5 => cases h
  | case6 line position c rest space newline lexeme spelling read ih =>
    obtain rfl | later := List.mem_cons.1 h
    · exact Word.isReadable_of_read read
    · exact ih later

theorem isReadable_of_mem_lexemes {line : Nat} {text : String} {lexeme : Lexeme}
    (h : lexeme ∈ (scan line text).lexemes) : lexeme.isReadable = true := by
  obtain ⟨token, scanned, rfl⟩ := List.mem_map.1 h
  exact isReadable_of_mem scanned

end Scan

/-- A text scans to its end, as words with the given lexemes, wherever it stands. -/
def Scans (cs : List Char) (lexemes : List Lexeme) : Prop :=
  ∀ line position, (Scan.scanFrom line position 0 cs).lexemes = lexemes
    ∧ (Scan.scanFrom line position 0 cs).failure? = none

namespace Scans

variable {rest : List Char} {lexemes : List Lexeme}

theorem nil : Scans [] [] := fun _ _ => ⟨rfl, rfl⟩

theorem space (scans : Scans rest lexemes) : Scans (' ' :: rest) lexemes :=
  fun line position => scans line (position + 1)

/-- A word in front of a text adds its lexeme. -/
theorem word {text : List Char} {lexeme : Lexeme} (reads : ReadsAs lexeme rest text) (scans : Scans rest lexemes) :
    Scans (text ++ rest) (lexeme :: lexemes) := by
  intro line position
  obtain ⟨space, newline, read⟩ := reads
  rename_i c cs
  obtain ⟨rest_lexemes, rest_failure⟩ := scans line (position + 1 + cs.length)
  have scan : Scan.scanFrom line position 0 (c :: cs ++ rest)
      = .cons ⟨lexeme, c :: cs, position, line⟩ (Scan.scanFrom line (position + 1 + cs.length) 0 rest) := by
    rw [List.cons_append, Scan.scanFrom, if_neg (by simp [space]), if_neg newline, read position]
    simp only [List.length_cons, Nat.add_sub_cancel, Scan.scanFrom_covered]
  rw [scan]
  exact ⟨congrArg (lexeme :: ·) rest_lexemes, rest_failure⟩

/-- A symbol in front of a text adds its lexeme. -/
theorem symbol (text : List Char) {lexeme : Lexeme} (reads : Word.symbol? (text ++ rest) = some (lexeme, text))
    (some : text ≠ []) (scans : Scans rest lexemes) : Scans (text ++ rest) (lexeme :: lexemes) :=
  word (Word.readsAs_symbol reads some) scans

/-- A name in front of a text that ends a word adds its lexeme. -/
theorem name {s : String} (isName : isName s = true) (stop : EndsWord rest) (scans : Scans rest lexemes) :
    Scans (s.toList ++ rest) (.name s :: lexemes) :=
  word (Word.readsAs_name isName stop) scans

end Scans

namespace Word

/-- A word that is no `==` does not start with `=`. -/
theorem head_ne_equals {lexeme : Lexeme} {text rest : List Char} (reads : ReadsAs lexeme rest text)
    (notEq : lexeme ≠ .operator .eq) : text.head? ≠ some '=' := by
  obtain ⟨space, newline, read⟩ := reads
  rename_i c cs
  rw [List.head?_cons, ne_eq, Option.some.injEq]
  rintro rfl
  have whole := read 0
  rw [Word.read, if_neg (by decide), if_neg (by decide), if_neg (by decide)] at whole
  cases shape : cs ++ rest with
  | nil => simp [shape, symbol?] at whole
  | cons d tail =>
    rw [shape] at whole
    by_cases equals : d = '='
    · subst equals
      simp only [symbol?, Except.ok.injEq, Prod.mk.injEq] at whole
      exact notEq whole.1.symm
    · simp [symbol?, equals] at whole

/-- A name starts with no point and no digit. -/
theorem head_of_name {s : String} (h : isName s = true) :
    ∃ c cs, s.toList = c :: cs ∧ Text.isDigit c = false ∧ c ≠ '.' := by
  obtain ⟨c, cs, chars, start, _, _⟩ := isName_iff.1 h
  refine ⟨c, cs, chars, (start_of_name start).1, ?_⟩
  rintro rfl
  cases start

end Word

namespace Expr

/-! ## The words of a tree -/

/-- Whether the parts of a path are names, at least one. -/
def isPath (segments : List String) : Bool := !segments.isEmpty && segments.all isName

mutual

/-- Whether an expression consists of parts that a text can hold: literals that can be read, names, known
operators, and nothing that is no expression. -/
def isSpelled : Expr → Bool
  | .literal value => value.isReadable
  | .path segments => isPath segments
  | .unary symbol e => (UnaryOperator.ofSymbol? symbol).isSome && isSpelled e
  | .reference e | .paren e => isSpelled e
  | .binary symbol a b => (Operator.ofSymbol? symbol).isSome && isSpelled a && isSpelled b
  | .index a b | .range a b _ => isSpelled a && isSpelled b
  | .methodCall e method args => isSpelled e && isName method && isSpelledAll args
  | .call function args => isPath function && isSpelledAll args
  | .field e name => isSpelled e && isName name
  | .array elements => isSpelledAll elements
  | .foreign _ => false

/-- Whether every expression of a row consists of parts that a text can hold. -/
def isSpelledAll : List Expr → Bool
  | [] => true
  | e :: rest => isSpelled e && isSpelledAll rest

end

/-- The lexemes of a path. -/
def pathLexemes : List String → List Lexeme
  | [] => []
  | [s] => [.name s]
  | s :: rest => .name s :: .pathSeparator :: pathLexemes rest

/-- The lexeme of a prefix operator. -/
def prefixLexeme : UnaryOperator → Lexeme
  | .neg => .operator .sub
  | .not => .bang

mutual

/-- The lexemes of an expression, in the order of its text. An unknown operator has none. -/
def lexemes : Expr → List Lexeme
  | .literal value => [value.lexeme]
  | .path segments => pathLexemes segments
  | .unary symbol e => ((UnaryOperator.ofSymbol? symbol).map prefixLexeme).toList ++ lexemes e
  | .reference e => .ampersand :: lexemes e
  | .binary symbol a b => lexemes a ++ (((Operator.ofSymbol? symbol).map Lexeme.operator).toList ++ lexemes b)
  | .methodCall e method args =>
    lexemes e ++ (.dot :: .name method :: .opening .round :: (lexemesAll args ++ [.closing .round]))
  | .call function args => pathLexemes function ++ (.opening .round :: (lexemesAll args ++ [.closing .round]))
  | .field e name => lexemes e ++ [.dot, .name name]
  | .array elements => .opening .square :: (lexemesAll elements ++ [.closing .square])
  | .index a b => lexemes a ++ (.opening .square :: (lexemes b ++ [.closing .square]))
  | .range a b inclusive => lexemes a ++ (.range inclusive :: lexemes b)
  | .paren e => .opening .round :: (lexemes e ++ [.closing .round])
  | .foreign _ => []

/-- The lexemes of a row of expressions with commas between them. -/
def lexemesAll : List Expr → List Lexeme
  | [] => []
  | [e] => lexemes e
  | e :: rest => lexemes e ++ (.comma :: lexemesAll rest)

end

/-! ## Its text scans to them -/

variable {rest : List Char} {lexemes : List Lexeme}

theorem scans_pathName {segments : List String} (isPath : isPath segments = true) (stop : EndsWord rest)
    (scans : Scans rest lexemes) : Scans ((pathName segments).toList ++ rest) (pathLexemes segments ++ lexemes) := by
  simp only [Expr.isPath, Bool.and_eq_true, Bool.not_eq_true', List.isEmpty_eq_false_iff] at isPath
  obtain ⟨some, names⟩ := isPath
  induction segments with
  | nil => exact absurd rfl some
  | cons s segments ih =>
    rw [List.all_cons, Bool.and_eq_true] at names
    cases segments with
    | nil => exact scans.name names.1 stop
    | cons t segments =>
      have text : (pathName (s :: t :: segments)).toList ++ rest
          = s.toList ++ ([':', ':'] ++ ((pathName (t :: segments)).toList ++ rest)) := by
        simp [pathName, String.intercalate_cons_cons]
      rw [text]
      exact ((ih (by simp) names.2).symbol [':', ':'] rfl (by simp)).name names.1
        (.of_head _ (by decide) (by decide) (by decide))

/-- A text with a first character that is not `=`: put after `!` or `..`, it makes no other symbol of them. -/
def StartsOperand (cs : List Char) : Prop := ∃ c tail, cs = c :: tail ∧ c ≠ '='

theorem StartsOperand.append {cs : List Char} (h : StartsOperand cs) (more : List Char) : StartsOperand (cs ++ more) := by
  obtain ⟨c, tail, rfl, ne⟩ := h
  exact ⟨c, tail ++ more, rfl, ne⟩

theorem startsOperand_of_readsAs {lexeme : Lexeme} {text rest : List Char} (reads : ReadsAs lexeme rest text)
    (notEq : lexeme ≠ .operator .eq) : StartsOperand text := by
  have head := Word.head_ne_equals reads notEq
  obtain ⟨_, _, _⟩ := reads
  exact ⟨_, _, rfl, by simpa using head⟩

theorem startsOperand_pathName {segments : List String} (h : isPath segments = true) :
    StartsOperand (pathName segments).toList := by
  cases segments with
  | nil => cases h
  | cons s segments =>
    simp only [isPath, List.all_cons, Bool.and_eq_true] at h
    have first := startsOperand_of_readsAs (Word.readsAs_name h.2.1 .nil) (by simp)
    cases segments with
    | nil => simpa [pathName] using first
    | cons t segments => simpa [pathName, String.intercalate_cons_cons] using first.append _

theorem startsOperand_write : (e : Expr) → e.isSpelled = true → StartsOperand e.write.toList
  | .literal value, h => by
    refine startsOperand_of_readsAs (Word.readsAs_literal h .nil) ?_
    cases value <;> simp [Literal.lexeme]
  | .path segments, h => startsOperand_pathName h
  | .unary symbol e, h => by
    simp only [isSpelled, Bool.and_eq_true, Option.isSome_iff_exists] at h
    obtain ⟨⟨op, known⟩, _⟩ := h
    obtain rfl := UnaryOperator.ofSymbol?_eq_some_iff.1 known
    have start : StartsOperand op.symbol.toList := by cases op <;> exact ⟨_, _, rfl, by decide⟩
    simpa [write] using start.append _
  | .reference e, h => by
    rw [write]
    split <;> exact ⟨'&', _, by simp; rfl, by decide⟩
  | .binary symbol a b, h => by
    simp only [isSpelled, Bool.and_eq_true] at h
    simpa [write] using (startsOperand_write a h.1.2).append _
  | .methodCall e method args, h => by
    simp only [isSpelled, Bool.and_eq_true] at h
    simpa [write] using (startsOperand_write e h.1.1).append _
  | .call function args, h => by
    simp only [isSpelled, Bool.and_eq_true] at h
    simpa [write] using (startsOperand_pathName h.1).append _
  | .field e name, h => by
    simp only [isSpelled, Bool.and_eq_true] at h
    simpa [write] using (startsOperand_write e h.1).append _
  | .array elements, h => ⟨'[', _, by simp [write]; rfl, by decide⟩
  | .index a b, h => by
    simp only [isSpelled, Bool.and_eq_true] at h
    simpa [write] using (startsOperand_write a h.1).append _
  | .range a b inclusive, h => by
    simp only [isSpelled, Bool.and_eq_true] at h
    simpa [write] using (startsOperand_write a h.1).append _
  | .paren e, h => ⟨'(', _, by simp [write]; rfl, by decide⟩

theorem scans_operator (op : Operator) (scans : Scans rest lexemes) :
    Scans (op.symbol.toList ++ ' ' :: rest) (.operator op :: lexemes) := by
  cases op <;> exact scans.space.symbol _ rfl (by simp [Operator.symbol])

theorem scans_prefix (op : UnaryOperator) (start : StartsOperand rest) (scans : Scans rest lexemes) :
    Scans (op.symbol.toList ++ rest) (prefixLexeme op :: lexemes) := by
  obtain ⟨c, tail, rfl, ne⟩ := start
  cases op with
  | neg => exact scans.symbol ['-'] rfl (by simp)
  | not =>
    refine scans.symbol ['!'] ?_ (by simp)
    simp [Word.symbol?, ne, prefixLexeme]

theorem scans_range (inclusive : Bool) (start : StartsOperand rest) (scans : Scans rest lexemes) :
    Scans ((if inclusive then ['.', '.', '='] else ['.', '.']) ++ rest) (.range inclusive :: lexemes) := by
  obtain ⟨c, tail, rfl, ne⟩ := start
  cases inclusive with
  | true => exact scans.symbol ['.', '.', '='] rfl (by simp)
  | false =>
    refine scans.symbol ['.', '.'] ?_ (by simp)
    simp [Word.symbol?, ne]

/-- A point and a name after a word. -/
theorem scans_member {name : String} (isName : isName name = true) (stop : EndsWord rest) (scans : Scans rest lexemes) :
    EndsWord ('.' :: (name.toList ++ rest)) ∧
      Scans ('.' :: (name.toList ++ rest)) (.dot :: .name name :: lexemes) := by
  have reads := scans.name isName stop
  obtain ⟨c, cs, chars, digit, point⟩ := Word.head_of_name isName
  rw [chars] at reads ⊢
  refine ⟨.cons (by decide) (by decide) fun _ d head => ?_, reads.symbol ['.'] ?_ (by simp)⟩
  · obtain rfl : c = d := by simpa using head
    exact digit
  · simp [Word.symbol?, point]

/-- A bracket ends a word. -/
theorem endsWord_bracket {c : Char} (bracket : c ∈ ['(', ')', '[', ']', ',']) (rest : List Char) :
    EndsWord (c :: rest) := by
  simp only [List.mem_cons, List.not_mem_nil, or_false] at bracket
  rcases bracket with rfl | rfl | rfl | rfl | rfl <;> exact .of_head _ (by decide) (by decide) (by decide)

mutual

/-- The text of an expression scans to its lexemes, before any text that ends a word. -/
theorem scans_write : (e : Expr) → e.isSpelled = true → {rest : List Char} → {lexemes : List Lexeme} →
    EndsWord rest → Scans rest lexemes → Scans (e.write.toList ++ rest) (e.lexemes ++ lexemes)
  | .literal value, h, rest, lexemes, stop, scans => scans.word (Word.readsAs_literal h stop)
  | .path segments, h, rest, lexemes, stop, scans => scans_pathName h stop scans
  | .unary symbol e, h, rest, lexemes, stop, scans => by
    simp only [isSpelled, Bool.and_eq_true, Option.isSome_iff_exists] at h
    obtain ⟨⟨op, known⟩, spelled⟩ := h
    obtain rfl := UnaryOperator.ofSymbol?_eq_some_iff.1 known
    have operand := scans_write e spelled stop scans
    have whole := scans_prefix op ((startsOperand_write e spelled).append rest) operand
    simpa [write, Expr.lexemes] using whole
  | .reference e, h, rest, lexemes, stop, scans => by
    have operand := scans_write e h stop scans
    obtain ⟨c, tail, chars, ne⟩ := startsOperand_write e h
    rw [write]
    split
    · -- the operand starts with `&` too, so a space stands between them
      have whole := operand.space.symbol ['&'] rfl (by simp)
      simpa [Expr.lexemes] using whole
    · rename_i notAmpersand
      have single : c ≠ '&' := by simpa [chars] using notAmpersand
      have ampersand : Word.symbol? (['&'] ++ (e.write.toList ++ rest)) = some (.ampersand, ['&']) := by
        simp [chars, Word.symbol?, single]
      have whole := operand.symbol ['&'] ampersand (by simp)
      simpa [Expr.lexemes] using whole
  | .binary symbol a b, h, rest, lexemes, stop, scans => by
    simp only [isSpelled, Bool.and_eq_true, Option.isSome_iff_exists] at h
    obtain ⟨⟨⟨op, known⟩, left⟩, right⟩ := h
    obtain rfl := Operator.ofSymbol?_eq_some_iff.1 known
    have operand := (scans_operator op (scans_write b right stop scans)).space
    have whole := scans_write a left (.of_head _ (by decide) (by decide) (by decide)) operand
    simpa [write, Expr.lexemes] using whole
  | .methodCall e method args, h, rest, lexemes, stop, scans => by
    simp only [isSpelled, Bool.and_eq_true] at h
    obtain ⟨⟨receiver, name⟩, arguments⟩ := h
    have closed := scans.symbol [')'] rfl (by simp)
    have list := (scans_writeAll args arguments (endsWord_bracket (by simp) _) closed).symbol ['('] rfl (by simp)
    obtain ⟨dotStop, member⟩ := scans_member name (endsWord_bracket (by simp) _) list
    have whole := scans_write e receiver dotStop member
    simpa [write, Expr.lexemes] using whole
  | .call function args, h, rest, lexemes, stop, scans => by
    simp only [isSpelled, Bool.and_eq_true] at h
    obtain ⟨path, arguments⟩ := h
    have closed := scans.symbol [')'] rfl (by simp)
    have list := (scans_writeAll args arguments (endsWord_bracket (by simp) _) closed).symbol ['('] rfl (by simp)
    have whole := scans_pathName path (endsWord_bracket (by simp) _) list
    simpa [write, Expr.lexemes] using whole
  | .field e name, h, rest, lexemes, stop, scans => by
    simp only [isSpelled, Bool.and_eq_true] at h
    obtain ⟨dotStop, member⟩ := scans_member h.2 stop scans
    have whole := scans_write e h.1 dotStop member
    simpa [write, Expr.lexemes] using whole
  | .array elements, h, rest, lexemes, stop, scans => by
    have closed := scans.symbol [']'] rfl (by simp)
    have whole := (scans_writeAll elements h (endsWord_bracket (by simp) _) closed).symbol ['['] rfl (by simp)
    simpa [write, Expr.lexemes] using whole
  | .index a b, h, rest, lexemes, stop, scans => by
    simp only [isSpelled, Bool.and_eq_true] at h
    have closed := scans.symbol [']'] rfl (by simp)
    have place := (scans_write b h.2 (endsWord_bracket (by simp) _) closed).symbol ['['] rfl (by simp)
    have whole := scans_write a h.1 (endsWord_bracket (by simp) _) place
    simpa [write, Expr.lexemes] using whole
  | .range a b inclusive, h, rest, lexemes, stop, scans => by
    simp only [isSpelled, Bool.and_eq_true] at h
    have last := scans_range inclusive ((startsOperand_write b h.2).append rest) (scans_write b h.2 stop scans)
    have dots : EndsWord ((if inclusive then ['.', '.', '='] else ['.', '.']) ++ (b.write.toList ++ rest)) := by
      cases inclusive <;> exact .cons (by decide) (by decide) fun _ d head => by
        obtain rfl : '.' = d := by simpa using head
        decide
    have whole := scans_write a h.1 dots last
    cases inclusive <;> simpa [write, Expr.lexemes] using whole
  | .paren e, h, rest, lexemes, stop, scans => by
    have closed := scans.symbol [')'] rfl (by simp)
    have whole := (scans_write e h (endsWord_bracket (by simp) _) closed).symbol ['('] rfl (by simp)
    simpa [write, Expr.lexemes] using whole

/-- The text of a row of expressions scans to their lexemes. -/
theorem scans_writeAll : (es : List Expr) → isSpelledAll es = true → {rest : List Char} → {lexemes : List Lexeme} →
    EndsWord rest → Scans rest lexemes → Scans ((writeAll es).toList ++ rest) (lexemesAll es ++ lexemes)
  | [], _, rest, lexemes, _, scans => scans
  | [e], h, rest, lexemes, stop, scans => by
    simp only [isSpelledAll, Bool.and_true] at h
    exact scans_write e h stop scans
  | e :: f :: es, h, rest, lexemes, stop, scans => by
    rw [isSpelledAll, Bool.and_eq_true] at h
    have others := (scans_writeAll (f :: es) h.2 stop scans).space.symbol [','] rfl (by simp)
    have whole := scans_write e h.1 (endsWord_bracket (by simp) _) others
    simpa [writeAll, Expr.lexemesAll] using whole

end

/-- An expression whose parts a text can hold is written as a text that scans to its lexemes. -/
theorem scan_write {e : Expr} (h : e.isSpelled = true) (line : Nat) :
    (Scan.scan line e.write).lexemes = e.lexemes ∧ (Scan.scan line e.write).failure? = none := by
  have whole := scans_write e h .nil .nil
  rw [List.append_nil, List.append_nil] at whole
  exact whole line 0

end Expr

end NamedExpr
