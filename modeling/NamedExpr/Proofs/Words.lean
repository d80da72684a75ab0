import NamedExpr.Proofs.Numeral
import NamedExpr.Proofs.Pattern
import NamedExpr.Expr.Written
import NamedExpr.Token.Scan
/-!
# Names, literals and symbols as words

What a text is read as, word by word, in both directions. A name, a literal or a symbol that is written out is
read as that word and no more of the text (`ReadsAs`), and whatever is read as a word is one that could have been
written (`isReadable_of_read`): integers have 63 bits, floats are numbers without a sign, and names are ASCII
identifiers that are no literals.
-/

namespace NamedExpr

open Text

/-- Whether a text is a name in expressions: an ASCII identifier that is no literal. -/
def isName (s : String) : Bool :=
  (match s.toList with
    | [] => false
    | c :: rest => startsName c && rest.all continuesName)
  && !(["true", "false", "None"].contains s)

/-- Whether a float is a number, perhaps infinite, that carries no sign. -/
def Binary64.isUnsigned (x : Float) : Bool := !x.isNaN && !Binary64.isNegative x

namespace Literal

/-- Whether a literal can be read from a text. -/
def isReadable : Literal → Bool
  | .none | .bool _ | .str _ => true
  | .int n => decide (0 ≤ n ∧ n < 2 ^ 63)
  | .float x => Binary64.isUnsigned x
  | .unknown _ => false

/-- The lexeme of a literal. One that cannot be read counts as a text. -/
def lexeme : Literal → Lexeme
  | .none => .none
  | .bool b => .boolean b
  | .int n => .integer n.toNat
  | .float x => .float x
  | .str s => .text s
  | .unknown shown => .text shown

end Literal

namespace Lexeme

/-- Whether a lexeme is one that a text can hold. -/
def isReadable : Lexeme → Bool
  | .integer n => decide (n < 2 ^ 63)
  | .float x => Binary64.isUnsigned x
  | .name s => isName s
  | _ => true

end Lexeme

/-- The text before `rest` is one word with the given lexeme, wherever it stands, and starts with no space. -/
inductive ReadsAs (lexeme : Lexeme) (rest : List Char) : List Char → Prop where
  | mk {c : Char} {cs : List Char} (space : Scan.isSpace c = false) (line : c ≠ '\n')
      (read : ∀ position, Word.read position c (cs ++ rest) = .ok (lexeme, c :: cs)) :
      ReadsAs lexeme rest (c :: cs)

namespace Word

/-! ## Symbols -/

/-- No symbol starts like a word of another kind or like a space. -/
theorem start_of_symbol {c : Char} {rest : List Char} {word : Lexeme × List Char}
    (h : symbol? (c :: rest) = some word) :
    isDigit c = false ∧ c ≠ '"' ∧ startsName c = false ∧ Scan.isSpace c = false ∧ c ≠ '\n' := by
  unfold symbol? at h
  split at h <;> first | (rename_i shape; cases shape; decide) | cases h

theorem read_of_symbol {position : Nat} {c : Char} {rest : List Char} {word : Lexeme × List Char}
    (h : symbol? (c :: rest) = some word) : read position c rest = .ok word := by
  obtain ⟨digit, quote, name, -⟩ := start_of_symbol h
  simp only [read, digit, name, Bool.false_eq_true, if_false, if_neg quote, h]

theorem readsAs_symbol {lexeme : Lexeme} {text rest : List Char}
    (h : symbol? (text ++ rest) = some (lexeme, text)) (some : text ≠ []) : ReadsAs lexeme rest text := by
  obtain ⟨c, cs, rfl⟩ := List.exists_cons_of_ne_nil some
  rw [List.cons_append] at h
  obtain ⟨-, -, -, space, line⟩ := start_of_symbol h
  exact .mk space line fun _ => read_of_symbol h

/-! ## Names -/

/-- A name starts with no digit, no quote and no space. -/
theorem start_of_name {c : Char} (h : startsName c = true) :
    isDigit c = false ∧ c ≠ '"' ∧ Scan.isSpace c = false ∧ c ≠ '\n' := by
  have range : (65 ≤ c.toNat ∧ c.toNat ≤ 90) ∨ (97 ≤ c.toNat ∧ c.toNat ≤ 122) ∨ c.toNat = 95 := by
    simp only [startsName, Char.isAlpha, Char.isUpper, Char.isLower, Bool.or_eq_true, Bool.and_eq_true,
      decide_eq_true_eq, beq_iff_eq, ge_iff_le, UInt32.le_iff_toNat_le] at h
    rcases h with (h | h) | rfl
    · exact .inl h
    · exact .inr (.inl h)
    · exact .inr (.inr rfl)
  have not {d : Char} (lt : d.toNat < 65) : c ≠ d := by
    rintro rfl
    omega
  refine ⟨?_, not (by decide), ?_, not (by decide)⟩
  · simp only [isDigit, if_pos (show c.toNat < 128 by omega), Char.isDigit, Bool.and_eq_false_iff, decide_eq_false_iff_not,
      ge_iff_le, UInt32.le_iff_toNat_le]
    exact .inr (by show ¬ c.toNat ≤ 57; omega)
  · simp [Scan.isSpace, not (show (' ' : Char).toNat < 65 by decide), not (show ('\t' : Char).toNat < 65 by decide),
      not (show ('\r' : Char).toNat < 65 by decide)]

theorem read_of_name {c : Char} (start : startsName c = true) (position : Nat) (rest : List Char) :
    read position c rest
      = .ok (nameLexeme (c :: rest.takeWhile continuesName), c :: rest.takeWhile continuesName) := by
  obtain ⟨digit, quote, -⟩ := start_of_name start
  simp only [read, digit, Bool.false_eq_true, if_false, if_neg quote, start, if_true]

/-- A row of characters that make a name is read as one word. -/
theorem readsAs_nameLexeme {c : Char} {cs rest : List Char} (start : startsName c = true)
    (more : ∀ d ∈ cs, continuesName d = true) (stop : EndsWord rest) :
    ReadsAs (nameLexeme (c :: cs)) rest (c :: cs) := by
  obtain ⟨-, -, space, line⟩ := start_of_name start
  refine .mk space line fun position => ?_
  have taken : (cs ++ rest).takeWhile continuesName = cs :=
    takeWhile_digits more (stop.takeWhile_eq_nil fun _ h => .inr h)
  rw [read_of_name start, taken]

theorem isName_iff {s : String} :
    isName s = true ↔
      ∃ c cs, s.toList = c :: cs ∧ startsName c = true ∧ (∀ d ∈ cs, continuesName d = true)
        ∧ nameLexeme (c :: cs) = .name s := by
  have literal (chars : List Char) : s.toList = chars ↔ s = String.ofList chars := by
    rw [← String.toList_inj, String.toList_ofList]
  unfold isName
  cases shape : s.toList with
  | nil => simp
  | cons c cs =>
    have whole := (literal _).1 shape
    simp only [Bool.and_eq_true, List.all_eq_true, Bool.not_eq_true', List.contains_eq_mem, List.mem_cons,
      List.not_mem_nil, or_false, decide_eq_false_iff_not, not_or, List.cons.injEq]
    constructor
    · rintro ⟨⟨start, more⟩, notTrue, notFalse, notNone⟩
      refine ⟨c, cs, ⟨rfl, rfl⟩, start, more, ?_⟩
      rw [nameLexeme, if_neg, if_neg, if_neg, whole]
      · exact fun h => notNone ((literal _).1 (shape.trans h))
      · exact fun h => notFalse ((literal _).1 (shape.trans h))
      · exact fun h => notTrue ((literal _).1 (shape.trans h))
    · rintro ⟨_, _, ⟨rfl, rfl⟩, start, more, name⟩
      refine ⟨⟨start, more⟩, ?_⟩
      rw [← shape] at name
      refine ⟨?_, ?_, ?_⟩
      · rintro rfl
        cases name
      · rintro rfl
        cases name
      · rintro rfl
        cases name

/-- A name is read as itself. -/
theorem readsAs_name {s : String} (h : isName s = true) {rest : List Char} (stop : EndsWord rest) :
    ReadsAs (.name s) rest s.toList := by
  obtain ⟨c, cs, chars, start, more, name⟩ := isName_iff.1 h
  rw [chars, ← name]
  exact readsAs_nameLexeme start more stop

/-! ## Texts -/

/-- A character inside quotes stands for itself, or is written as an escape that stands for it. -/
theorem escaped_cases (c : Char) :
    (Literal.escaped c = [c] ∧ c ≠ '\\' ∧ c ≠ '"')
      ∨ ∃ e, Literal.escaped c = ['\\', e] ∧ escapeValue? e = some c ∧ e ≠ '\n' := by
  unfold Literal.escaped
  split_ifs with backslash quote line tab ret
  · exact .inr ⟨'\\', rfl, by rw [backslash]; rfl, by decide⟩
  · exact .inr ⟨'"', rfl, by rw [quote]; rfl, by decide⟩
  · exact .inr ⟨'n', rfl, by rw [line]; rfl, by decide⟩
  · exact .inr ⟨'t', rfl, by rw [tab]; rfl, by decide⟩
  · exact .inr ⟨'r', rfl, by rw [ret]; rfl, by decide⟩
  · exact .inl ⟨rfl, backslash, quote⟩

theorem textBody_plain {c : Char} (quote : c ≠ '"') (backslash : c ≠ '\\') (rest : List Char) :
    textBody (c :: rest) = (textBody rest).map (c :: ·) :=
  textBody.eq_6 _ _ quote (fun _ h => absurd h backslash) (fun _ _ h => absurd h backslash)
    (fun h => absurd h backslash)

theorem unescape_plain (position : Nat) {c : Char} (backslash : c ≠ '\\') (rest : List Char) :
    unescape position (c :: rest) = (unescape position rest).map (c :: ·) :=
  unescape.eq_3 _ _ _ (fun _ _ h => absurd h backslash) (fun h => absurd h backslash)

/-- The body of a text ends at a quote; before that it goes on with an escape or with a character that stands for
itself. -/
@[elab_as_elim]
theorem textBody_induction {motive : List Char → List Char → Prop} (closed : ∀ rest, motive ('"' :: rest) [])
    (escaped : ∀ c rest body, c ≠ '\n' → motive rest body → motive ('\\' :: c :: rest) ('\\' :: c :: body))
    (plain : ∀ c rest body, c ≠ '"' → c ≠ '\\' → motive rest body → motive (c :: rest) (c :: body))
    {cs body : List Char} (found : textBody cs = some body) : motive cs body := by
  fun_induction textBody cs generalizing body with
  | case1 | case3 | case5 => cases found
  | case2 rest =>
    cases found
    exact closed rest
  | case4 c rest line ih =>
    obtain ⟨inner, inside, rfl⟩ := Option.map_eq_some_iff.1 found
    exact escaped c rest inner line (ih inside)
  | case6 c rest quote line escape alone ih =>
    obtain ⟨inner, inside, rfl⟩ := Option.map_eq_some_iff.1 found
    have backslash : c ≠ '\\' := by
      rintro rfl
      cases rest with
      | nil => exact alone rfl rfl
      | cons d rest => exact escape d rest rfl rfl
    exact plain c rest inner quote backslash (ih inside)

theorem exists_of_map_eq_ok {α β : Type} {f : α → β} {result : Except Failure α} {b : β}
    (mapped : result.map f = .ok b) : ∃ a, result = .ok a ∧ f a = b := by
  cases result with
  | error => cases mapped
  | ok a => exact ⟨a, rfl, Except.ok.inj mapped⟩

theorem eq_error_of_map {α β : Type} {f : α → β} {result : Except Failure α} {failure : Failure}
    (mapped : result.map f = .error failure) : result = .error failure := by
  cases result with
  | error failure' => exact congrArg Except.error (Except.error.inj mapped)
  | ok a => cases mapped

/-- Resolving the escapes of a text that was escaped gives it back. -/
theorem unescape_flatMap_escaped (position : Nat) (content : List Char) :
    unescape position (content.flatMap Literal.escaped) = .ok content := by
  induction content with
  | nil => rfl
  | cons c content ih =>
    rw [List.flatMap_cons]
    obtain ⟨itself, backslash, _⟩ | ⟨e, escape, value, _⟩ := escaped_cases c
    · rw [itself, List.singleton_append, unescape_plain position backslash, ih]
      rfl
    · simp only [escape, List.cons_append, List.nil_append, unescape, value, ih]
      rfl

/-- A text that was escaped holds no closing quote. -/
theorem textBody_flatMap_escaped (content rest : List Char) :
    textBody (content.flatMap Literal.escaped ++ '"' :: rest) = some (content.flatMap Literal.escaped) := by
  induction content with
  | nil => rfl
  | cons c content ih =>
    rw [List.flatMap_cons]
    obtain ⟨itself, backslash, quote⟩ | ⟨e, escape, _, line⟩ := escaped_cases c
    · rw [itself, List.singleton_append, List.cons_append, textBody_plain quote backslash, ih]
      rfl
    · rw [escape, List.append_assoc, List.cons_append, List.cons_append, List.nil_append,
        textBody.eq_4 _ _ line, ih]
      rfl

theorem read_quote (position : Nat) (rest : List Char) : read position '"' rest = readText position rest := by
  rw [read, if_neg (by decide), if_pos rfl]

/-- A text literal is read as its text, whatever follows. -/
theorem readsAs_text (content rest : List Char) :
    ReadsAs (.text (String.ofList content)) rest ('"' :: (content.flatMap Literal.escaped ++ ['"'])) := by
  refine .mk (by decide) (by decide) fun position => ?_
  have body := textBody_flatMap_escaped content rest
  have content_eq := unescape_flatMap_escaped position content
  simp only [read_quote, readText, List.append_assoc, List.singleton_append, body, content_eq]
  rfl

/-! ## Numbers -/

theorem read_of_digit {c : Char} (digit : Text.isDigit c = true) (position : Nat) (rest : List Char) :
    read position c rest = readNumber position (c :: rest) := by
  rw [read, if_pos digit]

theorem notBlank_of_digit {c : Char} (digit : c.isDigit = true) : Scan.isSpace c = false ∧ c ≠ '\n' := by
  simp only [Scan.isSpace, Bool.or_eq_false_iff, beq_eq_false_iff_ne]
  refine ⟨⟨⟨?_, ?_⟩, ?_⟩, ?_⟩ <;> (rintro rfl; simp at digit)

/-- A row of ASCII digits that is read as a number is read as a word. -/
theorem readsAs_number {lexeme : Lexeme} {text rest : List Char} {c : Char} {cs : List Char} (shape : text = c :: cs)
    (digit : c.isDigit = true) (number : ∀ position, readNumber position (text ++ rest) = .ok (lexeme, text)) :
    ReadsAs lexeme rest text := by
  subst shape
  obtain ⟨space, newline⟩ := notBlank_of_digit digit
  refine .mk space newline fun position => ?_
  rw [read_of_digit (isDigit_of_ascii digit)]
  exact number position

theorem readsAs_integer {n : Nat} (small : n < 2 ^ 63) {rest : List Char} (stop : EndsWord rest) :
    ReadsAs (.integer n) rest (Nat.toDigits 10 n) := by
  obtain ⟨c, cs, shape⟩ := List.exists_cons_of_ne_nil (Nat.toDigits_ne_nil : Nat.toDigits 10 n ≠ [])
  refine readsAs_number shape ?_ fun position => readNumber_toDigits small stop position
  exact AsciiDigits.toDigits n c (shape ▸ List.mem_cons_self)

theorem readsAs_floatText {text : List Char} {d : Decimal} (is : FloatText text d) {rest : List Char}
    (stop : EndsWord rest) : ReadsAs (.float d.toFloat) rest text := by
  have number := fun position => readNumber_floatText is stop position
  obtain ⟨some, ascii, isFraction, isExponent, float⟩ := is
  rename_i whole fraction exponent
  obtain ⟨c, cs, rfl⟩ := List.exists_cons_of_ne_nil some
  have shape : c :: cs ++ fraction ++ exponent = c :: (cs ++ fraction ++ exponent) := rfl
  exact readsAs_number shape (ascii c List.mem_cons_self) number

/-- A float literal without a sign is written as a decimal whose number it is. -/
theorem floatText_write {x : Float} (h : Binary64.isUnsigned x = true) :
    ∃ d, FloatText (Literal.float x).write.toList d ∧ d.toFloat = x := by
  simp only [Binary64.isUnsigned, Bool.and_eq_true, Bool.not_eq_true'] at h
  obtain ⟨number, sign⟩ := h
  have bits := Binary64.bits_of_not_negative sign
  have back : Float.ofBits (UInt64.ofNat x.toBits.toNat) = x := by
    rw [UInt64.ofNat_toNat, Binary64.ofBits_toBits]
  cases parts : Binary64.parts x with
  | notANumber =>
    rw [Binary64.isNaN_iff.2 parts] at number
    cases number
  | infinite negative =>
    obtain ⟨rfl, infinite⟩ := Binary64.bits_of_infinite parts
    have text : FloatText (['1'] ++ [] ++ ['e', '4', '0', '0']) (decimal ['1'] [] ['e', '4', '0', '0']) :=
      .mk (by simp) (AsciiDigits.toDigits 1) .none (.plain (by simp) (AsciiDigits.toDigits 400)) (.inr (by simp))
    have nearest : (decimal ['1'] [] ['e', '4', '0', '0']).nearestBits = Binary64.infinityBits := by decide
    have written : (Literal.float x).write.toList = ['1'] ++ [] ++ ['e', '4', '0', '0'] := by
      simp [Literal.write, parts, sign]
    refine ⟨_, written ▸ text, ?_⟩
    rw [Decimal.toFloat, nearest, ← infinite, bits, back]
  | finite negative mantissa exponent =>
    obtain ⟨rfl, finite⟩ := Binary64.bits_of_parts parts
    obtain ⟨d, text, nearest⟩ := floatText_magnitude (Decimal.shortest mantissa exponent)
    refine ⟨d, ?_, ?_⟩
    · simpa [Literal.write, Layout.write, Layout.chars, parts, sign] using text
    · by_cases hm : mantissa = 0
      · subst hm
        have zero : (Decimal.shortest 0 exponent).nearestBits = 0 := by
          simp [Decimal.shortest, Binary64.fraction, Decimal.nearestBits]
        rw [if_pos rfl, bits] at finite
        rw [Decimal.toFloat, nearest, zero, ← finite, back]
      · rw [sign] at parts
        rw [Decimal.toFloat, nearest, Decimal.nearestBits_shortest hm, Binary64.nearest_of_parts parts hm]

/-! ## Literals -/

/-- A literal that can be read is read as its lexeme. -/
theorem readsAs_literal {value : Literal} (h : value.isReadable = true) {rest : List Char} (stop : EndsWord rest) :
    ReadsAs value.lexeme rest value.write.toList := by
  cases value with
  | none => exact @readsAs_nameLexeme 'N' ['o', 'n', 'e'] rest (by decide) (List.all_eq_true.1 (by decide)) stop
  | bool b =>
    cases b with
    | true => exact @readsAs_nameLexeme 't' ['r', 'u', 'e'] rest (by decide) (List.all_eq_true.1 (by decide)) stop
    | false => exact @readsAs_nameLexeme 'f' ['a', 'l', 's', 'e'] rest (by decide) (List.all_eq_true.1 (by decide)) stop
  | int n =>
    simp only [Literal.isReadable, decide_eq_true_eq] at h
    obtain ⟨m, rfl⟩ := Int.eq_ofNat_of_zero_le h.1
    have text : (Literal.int m).write.toList = Nat.toDigits 10 m := String.toList_ofList
    rw [text]
    exact readsAs_integer (by omega) stop
  | float x =>
    obtain ⟨d, text, rfl⟩ := floatText_write h
    exact readsAs_floatText text stop
  | str s =>
    have text : (Literal.str s).write.toList = '"' :: (s.toList.flatMap Literal.escaped ++ ['"']) := by
      simp [Literal.write]
    rw [text]
    simpa [Literal.lexeme] using readsAs_text s.toList rest
  | unknown shown => cases h

/-! ## What is read as a word -/

theorem isUnsigned_toFloat (d : Decimal) : Binary64.isUnsigned d.toFloat = true := by
  have bound : d.nearestBits ≤ Binary64.infinityBits := by
    unfold Decimal.nearestBits
    split_ifs
    · exact Nat.zero_le _
    · exact Nat.le_refl _
    · exact Nat.zero_le _
    · exact Nat.min_le_left _ _
  obtain ⟨sign, number⟩ := Binary64.parts_ofBits bound
  have isNumber : d.toFloat.isNaN = false := by
    rw [Bool.eq_false_iff]
    exact fun h => number (Binary64.isNaN_iff.1 h)
  rw [Binary64.isUnsigned, isNumber]
  simp [Decimal.toFloat, sign]

theorem isReadable_of_readNumber {position : Nat} {cs : List Char} {lexeme : Lexeme} {spelling : List Char}
    (h : readNumber position cs = .ok (lexeme, spelling)) : lexeme.isReadable = true := by
  simp only [readNumber] at h
  split at h
  · cases h
    exact isUnsigned_toFloat _
  · split at h
    · split at h
      · cases h
      · split at h
        · rename_i small
          cases h
          simpa [Lexeme.isReadable] using small
        · cases h
    · cases h
      exact isUnsigned_toFloat _

theorem isReadable_of_readText {position : Nat} {cs : List Char} {lexeme : Lexeme} {spelling : List Char}
    (h : readText position cs = .ok (lexeme, spelling)) : lexeme.isReadable = true := by
  simp only [readText] at h
  split at h
  · cases h
  · obtain ⟨content, -, word⟩ := exists_of_map_eq_ok h
    cases word
    rfl

theorem isReadable_nameLexeme {c : Char} {cs : List Char} (start : startsName c = true)
    (more : ∀ d ∈ cs, continuesName d = true) : (nameLexeme (c :: cs)).isReadable = true := by
  cases name : nameLexeme (c :: cs) with
  | name s =>
    have whole : s = String.ofList (c :: cs) := by
      unfold nameLexeme at name
      split_ifs at name
      exact (Lexeme.name.inj name).symm
    exact isName_iff.2 ⟨c, cs, by rw [whole, String.toList_ofList], start, more, name⟩
  | integer | float =>
    unfold nameLexeme at name
    split_ifs at name
  | _ => rfl

theorem isReadable_of_symbol {cs : List Char} {lexeme : Lexeme} {spelling : List Char}
    (h : symbol? cs = some (lexeme, spelling)) : lexeme.isReadable = true := by
  unfold symbol? at h
  split at h <;> first | (cases h; rfl) | cases h

/-- Every word that is read is one that a text can hold. -/
theorem isReadable_of_read {position : Nat} {c : Char} {rest : List Char} {lexeme : Lexeme} {spelling : List Char}
    (h : read position c rest = .ok (lexeme, spelling)) : lexeme.isReadable = true := by
  simp only [read] at h
  split_ifs at h with digit quote name
  · exact isReadable_of_readNumber h
  · exact isReadable_of_readText h
  · cases h
    exact isReadable_nameLexeme name fun d hd => List.mem_takeWhile_imp hd
  · split at h
    · rename_i word symbol
      cases h
      exact isReadable_of_symbol symbol
    · cases h

end Word

end NamedExpr
