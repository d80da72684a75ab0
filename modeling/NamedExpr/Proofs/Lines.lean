import NamedExpr.Prompt
import NamedExpr.Script
import NamedExpr.Proofs.Scanning
/-!
# Lines

A script is its lines with a line feed between each two, and what is entered at the prompt is its lines with one after
each; both are cut into these lines again (`Script.splitLines_intercalate`, `Prompt.entries_join`). A text is trimmed
(`Text.Trimmed`) if it is one line and neither starts nor ends in white space. Identifiers are, and so is every text
that an expression is written as (`Expr.trimmed_write`), which is what keeps the two apart in a definition.
-/

namespace NamedExpr

/-! ## Cutting into lines -/

namespace Script

theorem splitLines_of_not_mem {line : List Char} (oneLine : '\n' ∉ line) : splitLines line = [line] := by
  induction line with
  | nil => rfl
  | cons c line ih =>
    obtain ⟨other, others⟩ := not_or.1 (mt List.mem_cons.2 oneLine)
    rw [splitLines.eq_3 _ _ (Ne.symm other), ih others]

theorem splitLines_append {line : List Char} (oneLine : '\n' ∉ line) (rest : List Char) :
    splitLines (line ++ '\n' :: rest) = line :: splitLines rest := by
  induction line with
  | nil => rfl
  | cons c line ih =>
    obtain ⟨other, others⟩ := not_or.1 (mt List.mem_cons.2 oneLine)
    rw [List.cons_append, splitLines.eq_3 _ _ (Ne.symm other), ih others]

theorem toList_intercalate_cons (line next : String) (lines : List String) :
    ("\n".intercalate (line :: next :: lines)).toList
      = line.toList ++ '\n' :: ("\n".intercalate (next :: lines)).toList := by
  simp [String.intercalate_cons_cons]

/-- Lines that are joined are cut apart again. -/
theorem splitLines_intercalate {lines : List String} (some : lines ≠ [])
    (oneLine : ∀ line ∈ lines, '\n' ∉ line.toList) :
    (splitLines ("\n".intercalate lines).toList).map String.ofList = lines := by
  induction lines with
  | nil => exact absurd rfl some
  | cons line lines ih =>
    obtain ⟨first, others⟩ := List.forall_mem_cons.1 oneLine
    cases lines with
    | nil => simp [splitLines_of_not_mem first]
    | cons next lines =>
      rw [toList_intercalate_cons, splitLines_append first, List.map_cons, ih (by simp) others, String.ofList_toList]

/-- Between lines there are only line feeds. -/
theorem not_mem_intercalate {c : Char} (other : c ≠ '\n') {lines : List String}
    (free : ∀ line ∈ lines, c ∉ line.toList) : c ∉ ("\n".intercalate lines).toList := by
  induction lines with
  | nil => simp
  | cons line lines ih =>
    obtain ⟨first, others⟩ := List.forall_mem_cons.1 free
    cases lines with
    | nil => simpa using first
    | cons next lines =>
      rw [toList_intercalate_cons, List.mem_append, List.mem_cons]
      rintro (inFirst | feed | inOthers)
      · exact first inFirst
      · exact other feed
      · exact ih others inOthers

/-- Without carriage returns, every line ends in a line feed already. -/
theorem normalizeEnds_of_not_mem {cs : List Char} (plain : '\r' ∉ cs) : normalizeEnds cs = cs := by
  fun_induction normalizeEnds cs with
  | case1 rest | case2 rest => simp at plain
  | case3 c rest _ _ ih => rw [ih (not_or.1 (mt List.mem_cons.2 plain)).2]
  | case4 => rfl

end Script

namespace Prompt

theorem entriesFrom_append (line : List Char) {cs : List Char} (oneLine : '\n' ∉ cs) (rest : List Char) :
    entriesFrom line (cs ++ '\n' :: rest) = entryOf (line.reverse ++ cs) :: entriesFrom [] rest := by
  induction cs generalizing line with
  | nil => simp [entriesFrom]
  | cons c cs ih =>
    obtain ⟨other, others⟩ := not_or.1 (mt List.mem_cons.2 oneLine)
    rw [List.cons_append, entriesFrom.eq_3 _ _ _ (Ne.symm other), ih _ others]
    simp

/-- Lines that are entered one after the other are read as such. -/
theorem entries_join {lines : List String} (oneLine : ∀ line ∈ lines, '\n' ∉ line.toList)
    (notBreak : ∀ line ∈ lines, line ≠ "\x03") :
    entries (String.join (lines.map (· ++ "\n"))) = lines.map .line := by
  unfold entries
  induction lines with
  | nil => rfl
  | cons line lines ih =>
    obtain ⟨first, others⟩ := List.forall_mem_cons.1 oneLine
    obtain ⟨text, texts⟩ := List.forall_mem_cons.1 notBreak
    have shape : (String.join ((line :: lines).map (· ++ "\n"))).toList
        = line.toList ++ '\n' :: (String.join (lines.map (· ++ "\n"))).toList := by
      simp [String.toList_join]
    have whole : entryOf line.toList = .line line := by
      rw [entryOf, if_neg, String.ofList_toList]
      intro same
      exact text (String.toList_inj.1 same)
    rw [shape, entriesFrom_append [] first, List.reverse_nil, List.nil_append, whole, ih others texts, List.map_cons]

end Prompt

namespace Text

/-! ## Cutting at a mark -/

/-- A text is cut at the first mark in it. -/
theorem cut_append {mark : Char} {before : List Char} (free : mark ∉ before) (after : List Char) :
    cut mark (before ++ mark :: after) = (before, some after) := by
  have passed : ∀ c ∈ before, decide (c ≠ mark) = true := by
    intro c member
    have differs : c ≠ mark := fun same => free (same ▸ member)
    exact decide_eq_true differs
  have rest : (before ++ mark :: after).dropWhile (· ≠ mark) = mark :: after := by
    rw [List.dropWhile_append_of_pos passed, List.dropWhile_cons_of_neg (by simp)]
  have first : (before ++ mark :: after).takeWhile (· ≠ mark) = before := by
    rw [List.takeWhile_append_of_pos passed, List.takeWhile_cons_of_neg (by simp), List.append_nil]
  rw [cut, rest]
  simp only [first]

/-! ## Texts without white space at their ends -/

/-- The code points of white space. -/
def blankCodes : List Nat :=
  List.range' 9 5 ++ List.range' 0x1C 5 ++ [0x85, 0xA0, 0x1680] ++ List.range' 0x2000 11
    ++ [0x2028, 0x2029, 0x202F, 0x205F, 0x3000]

theorem mem_blankCodes {c : Char} (blank : isBlank c = true) : c.toNat ∈ blankCodes := by
  simp only [isBlank, blankPoints, within] at blank
  simp only [blankCodes, List.mem_append, List.mem_range'_1, List.mem_cons, List.not_mem_nil, or_false]
  grind

/-- What holds of no white space holds only of characters that are none. -/
theorem isBlank_eq_false {p : Char → Bool} (apart : ∀ n ∈ blankCodes, p (Char.ofNat n) = false) {c : Char}
    (holds : p c = true) : isBlank c = false := by
  cases blank : isBlank c with
  | false => rfl
  | true =>
    rw [← Char.ofNat_toNat c, apart _ (mem_blankCodes blank)] at holds
    cases holds

/-- A text that is one line and neither starts nor ends in white space. -/
structure Trimmed (cs : List Char) : Prop where
  some : cs ≠ []
  oneLine : '\n' ∉ cs
  first : ∀ c ∈ cs.head?, isBlank c = false
  last : ∀ c ∈ cs.getLast?, isBlank c = false

namespace Trimmed

variable {cs : List Char}

/-- Without white space, a text is trimmed. -/
theorem of_solid (some : cs ≠ []) (solid : ∀ c ∈ cs, isBlank c = false) : Trimmed cs where
  some := some
  oneLine := fun member => by cases solid _ member
  first := fun c head => solid c (List.mem_of_mem_head? head)
  last := fun c last => solid c (List.mem_of_getLast? last)

/-- Between two trimmed texts there may be anything but the end of a line. -/
theorem around {before between after : List Char} (first : Trimmed before) (oneLine : '\n' ∉ between)
    (last : Trimmed after) : Trimmed (before ++ (between ++ after)) where
  some := by simp [first.some]
  oneLine := by simp [first.oneLine, oneLine, last.oneLine]
  first := by
    rw [List.head?_append_of_ne_nil _ first.some]
    exact first.first
  last := by
    rw [← List.append_assoc, List.getLast?_append_of_ne_nil _ last.some]
    exact last.last

theorem append {before after : List Char} (first : Trimmed before) (last : Trimmed after) :
    Trimmed (before ++ after) := first.around List.not_mem_nil last

/-- A text of one character. -/
theorem mark {c : Char} (solid : isBlank c = false) : Trimmed [c] := .of_solid (by simp) (by simpa using solid)

theorem dropWhile_blank {before cs rest : List Char} (blank : ∀ c ∈ before, isBlank c = true) (some : cs ≠ [])
    (first : ∀ c ∈ cs.head?, isBlank c = false) : (before ++ (cs ++ rest)).dropWhile isBlank = cs ++ rest := by
  obtain ⟨c, cs, rfl⟩ := List.exists_cons_of_ne_nil some
  rw [List.dropWhile_append_of_pos blank, List.cons_append, List.dropWhile_cons_of_neg]
  simp [first c rfl]

/-- White space around a trimmed text is all that trimming takes away. -/
theorem trimChars_eq (trimmed : Trimmed cs) {before after : List Char} (blankBefore : ∀ c ∈ before, isBlank c = true)
    (blankAfter : ∀ c ∈ after, isBlank c = true) : trimChars (before ++ (cs ++ after)) = cs := by
  have last : ∀ c ∈ cs.reverse.head?, isBlank c = false := by
    rw [List.head?_reverse]
    exact trimmed.last
  have rest := @dropWhile_blank after.reverse cs.reverse [] (by simpa using blankAfter) (by simp [trimmed.some]) last
  rw [List.append_nil] at rest
  rw [trimChars, dropWhile_blank blankBefore trimmed.some trimmed.first, List.reverse_append, rest,
    List.reverse_reverse]

end Trimmed

/-- An identifier holds no white space, and no `=`. -/
theorem solid_of_isIdentifierChars {cs : List Char} (h : isIdentifierChars cs = true) :
    cs ≠ [] ∧ ∀ c ∈ cs, isBlank c = false ∧ c ≠ '=' := by
  cases cs with
  | nil => cases h
  | cons c cs =>
    simp only [isIdentifierChars, Bool.and_eq_true, List.all_eq_true] at h
    refine ⟨by simp, List.forall_mem_cons.2 ⟨⟨isBlank_eq_false (by decide +kernel) h.1, ?_⟩, fun d member => ?_⟩⟩
    · rintro rfl
      exact absurd h.1 (by decide +kernel)
    · refine ⟨isBlank_eq_false (by decide +kernel) (h.2 d member), ?_⟩
      rintro rfl
      exact absurd (h.2 _ member) (by decide +kernel)

theorem trimmed_of_isIdentifier {s : String} (h : isIdentifier s = true) : Trimmed s.toList := by
  obtain ⟨some, solid⟩ := solid_of_isIdentifierChars h
  exact .of_solid some fun c member => (solid c member).1

end Text

/-! ## The text of an expression -/

open Text

/-- A name in an expression holds no white space. -/
theorem trimmed_of_isName {s : String} (h : isName s = true) : Trimmed s.toList := by
  obtain ⟨d, ds, chars, start, more, -⟩ := Word.isName_iff.1 h
  rw [chars]
  refine .of_solid (by simp) (List.forall_mem_cons.2 ⟨isBlank_eq_false (by decide) start, fun c member => ?_⟩)
  exact isBlank_eq_false (by decide) (more c member)

/-- A number is written without white space. -/
theorem trimmed_of_floatText {text : List Char} {d : Decimal} (is : Word.FloatText text d) : Trimmed text := by
  have digits {row : List Char} (ascii : AsciiDigits row) : ∀ c ∈ row, isBlank c = false :=
    fun c member => isBlank_eq_false (by decide) (ascii c member)
  obtain ⟨some, ascii, isFraction, isExponent, -⟩ := is
  rename_i whole fraction exponent
  have ofFraction : ∀ c ∈ fraction, isBlank c = false := by
    cases isFraction with
    | none => simp
    | digits _ ascii => exact List.forall_mem_cons.2 ⟨by decide, digits ascii⟩
  have ofExponent : ∀ c ∈ exponent, isBlank c = false := by
    cases isExponent with
    | none => simp
    | plain _ ascii => exact List.forall_mem_cons.2 ⟨by decide, digits ascii⟩
    | signed sign _ ascii =>
      refine List.forall_mem_cons.2 ⟨by decide, List.forall_mem_cons.2 ⟨?_, digits ascii⟩⟩
      obtain rfl | rfl := sign <;> decide
  apply Trimmed.of_solid (by simp [some])
  simp only [List.append_assoc, List.forall_mem_append]
  exact ⟨digits ascii, ofFraction, ofExponent⟩

/-- No literal goes on to another line: the ends of lines in a text are written as escapes. -/
theorem Literal.trimmed_write {value : Literal} (h : value.isReadable = true) : Trimmed value.write.toList := by
  cases value with
  | none => exact .of_solid (by decide) (by simp [write]; decide)
  | bool b => cases b <;> exact .of_solid (by decide) (by simp [write]; decide)
  | int n =>
    simp only [isReadable, decide_eq_true_eq] at h
    obtain ⟨m, rfl⟩ := Int.eq_ofNat_of_zero_le h.1
    have text : (Literal.int m).write.toList = Nat.toDigits 10 m := String.toList_ofList
    rw [text]
    exact .of_solid Nat.toDigits_ne_nil fun c member => isBlank_eq_false (by decide) (AsciiDigits.toDigits m c member)
  | float x =>
    obtain ⟨d, text, -⟩ := Word.floatText_write h
    exact trimmed_of_floatText text
  | str s =>
    have text : (Literal.str s).write.toList = ['"'] ++ (s.toList.flatMap Literal.escaped ++ ['"']) := by
      simp [Literal.write]
    rw [text]
    refine .around (.mark (by decide)) ?_ (.mark (by decide))
    simp only [List.mem_flatMap, not_exists, not_and]
    intro c _
    unfold escaped
    grind
  | unknown shown => cases h

namespace Expr

theorem trimmed_pathName {segments : List String} (h : isPath segments = true) :
    Trimmed (pathName segments).toList := by
  simp only [isPath, Bool.and_eq_true, Bool.not_eq_true', List.isEmpty_eq_false_iff, List.all_eq_true] at h
  obtain ⟨some, names⟩ := h
  induction segments with
  | nil => exact absurd rfl some
  | cons s segments ih =>
    obtain ⟨first, others⟩ := List.forall_mem_cons.1 names
    have head := trimmed_of_isName first
    cases segments with
    | nil => simpa [pathName] using head
    | cons t segments =>
      have text : (pathName (s :: t :: segments)).toList = s.toList ++ ([':', ':'] ++ (pathName (t :: segments)).toList) := by
        simp [pathName, String.intercalate_cons_cons]
      rw [text]
      exact head.around (by decide) (ih (by simp) others)

mutual

/-- The text of an expression that a text can hold is one line and neither starts nor ends in white space. -/
theorem trimmed_write : (e : Expr) → e.isSpelled = true → Trimmed e.write.toList
  | .literal value, h => Literal.trimmed_write h
  | .path segments, h => trimmed_pathName h
  | .unary symbol e, h => by
    simp only [isSpelled, Bool.and_eq_true, Option.isSome_iff_exists] at h
    obtain ⟨⟨op, known⟩, spelled⟩ := h
    obtain rfl := UnaryOperator.ofSymbol?_eq_some_iff.1 known
    have sign : Trimmed op.symbol.toList := by cases op <;> exact .mark (by decide)
    simpa [write] using sign.append (trimmed_write e spelled)
  | .reference e, h => by
    have sign : Trimmed ['&'] := .mark (by decide)
    rw [write]
    split
    · simpa using sign.around (by decide : '\n' ∉ [' ']) (trimmed_write e h)
    · simpa using sign.append (trimmed_write e h)
  | .binary symbol a b, h => by
    simp only [isSpelled, Bool.and_eq_true, Option.isSome_iff_exists] at h
    obtain ⟨⟨⟨op, known⟩, left⟩, right⟩ := h
    obtain rfl := Operator.ofSymbol?_eq_some_iff.1 known
    have between : '\n' ∉ ' ' :: (op.symbol.toList ++ [' ']) := by cases op <;> decide
    simpa [write] using (trimmed_write a left).around between (trimmed_write b right)
  | .methodCall e method args, h => by
    simp only [isSpelled, Bool.and_eq_true] at h
    have name := (trimmed_of_isName h.1.2).oneLine
    have between : '\n' ∉ '.' :: (method.toList ++ '(' :: (writeAll args).toList) := by
      simp [name, oneLine_writeAll args h.2]
    simpa [write] using (trimmed_write e h.1.1).around between (.mark (by decide) : Trimmed [')'])
  | .call function args, h => by
    simp only [isSpelled, Bool.and_eq_true] at h
    have between : '\n' ∉ '(' :: (writeAll args).toList := by simp [oneLine_writeAll args h.2]
    simpa [write] using (trimmed_pathName h.1).around between (.mark (by decide) : Trimmed [')'])
  | .field e name, h => by
    simp only [isSpelled, Bool.and_eq_true] at h
    simpa [write] using (trimmed_write e h.1).around (by decide : '\n' ∉ ['.']) (trimmed_of_isName h.2)
  | .array elements, h => by
    have first : Trimmed ['['] := .mark (by decide)
    simpa [write] using first.around (oneLine_writeAll elements h) (.mark (by decide) : Trimmed [']'])
  | .index a b, h => by
    simp only [isSpelled, Bool.and_eq_true] at h
    have between : '\n' ∉ '[' :: b.write.toList := by simp [(trimmed_write b h.2).oneLine]
    simpa [write] using (trimmed_write a h.1).around between (.mark (by decide) : Trimmed [']'])
  | .range a b inclusive, h => by
    simp only [isSpelled, Bool.and_eq_true] at h
    have dots : '\n' ∉ (if inclusive then "..=" else "..").toList := by cases inclusive <;> decide
    simpa [write] using (trimmed_write a h.1).around dots (trimmed_write b h.2)
  | .paren e, h => by
    have first : Trimmed ['('] := .mark (by decide)
    simpa [write] using first.around (trimmed_write e h).oneLine (.mark (by decide) : Trimmed [')'])

theorem oneLine_writeAll : (es : List Expr) → isSpelledAll es = true → '\n' ∉ (writeAll es).toList
  | [], _ => by simp [writeAll]
  | [e], h => by
    simp only [isSpelledAll, Bool.and_true] at h
    exact (trimmed_write e h).oneLine
  | e :: f :: es, h => by
    rw [isSpelledAll, Bool.and_eq_true] at h
    simp [writeAll, (trimmed_write e h.1).oneLine, oneLine_writeAll (f :: es) h.2]

end

end Expr

end NamedExpr
