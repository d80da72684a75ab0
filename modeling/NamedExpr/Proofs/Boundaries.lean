import NamedExpr.Proofs.Words
/-!
# The boundaries of words

What is read as a word is the start of its text, and it does not depend on what follows, as long as that does not go
on with it: before white space its spelling is read as the same word again (`Word.exists_readsAs_of_read`). For a number
this is said of each of its parts, a row of digits, a fraction, an exponent and a suffix, before a text that does not go
on with that part. Only texts in quotes go over the end of a line (`Word.read_again`).
-/

namespace NamedExpr

-- Powers are those of the core library, also beside modules that bring others.
attribute [local instance (high)] instPowNat

open Text

namespace Scan

/-- Whether a character is white space, which separates words. -/
def isBlank (c : Char) : Bool := isSpace c || c == '\n'

theorem isBlank_iff {c : Char} : isBlank c = true ↔ c ∈ [' ', '\t', '\r', '\n'] := by
  simp [isBlank, isSpace, or_assoc]

/-- A text that a word before it ends at: it is empty or starts with white space. -/
def StartsBlank (rest : List Char) : Prop := ∀ c ∈ rest.head?, isBlank c = true

theorem StartsBlank.cases {rest : List Char} (blank : StartsBlank rest) :
    rest = [] ∨ ∃ c tail, rest = c :: tail ∧ (c = ' ' ∨ c = '\t' ∨ c = '\r' ∨ c = '\n') := by
  cases rest with
  | nil => exact .inl rfl
  | cons c tail => exact .inr ⟨c, tail, rfl, by simpa using isBlank_iff.1 (blank c rfl)⟩

theorem StartsBlank.endsWord {rest : List Char} (blank : StartsBlank rest) : EndsWord rest := by
  obtain rfl | ⟨c, tail, rfl, white⟩ := blank.cases
  · exact .nil
  · obtain rfl | rfl | rfl | rfl := white <;> exact .of_head _ (by decide) (by decide) (by decide)

end Scan

namespace Word

/-! ## Numbers -/

theorem append_starts {first second cs : List Char} (starts : first <+: cs) (goesOn : second <+: cs.drop first.length) :
    first ++ second <+: cs := by
  obtain ⟨more, rfl⟩ := starts
  rw [List.drop_left] at goesOn
  exact (List.prefix_append_right_inj first).2 goesOn

theorem fractionPart_starts (cs : List Char) : fractionPart cs <+: cs := by
  unfold fractionPart
  split
  · rename_i c rest
    split
    · rw [List.cons_prefix_cons, List.cons_prefix_cons]
      exact ⟨rfl, rfl, List.takeWhile_prefix _⟩
    · exact List.nil_prefix
  · exact List.nil_prefix

/-- A fraction is read again before what goes on with no row of digits and is no fraction. -/
theorem fractionPart_again (cs : List Char) {rest : List Char} (stop : rest.takeWhile isDigitOrGap = [])
    (none : fractionPart rest = []) : fractionPart (fractionPart cs ++ rest) = fractionPart cs := by
  rw [fractionPart.eq_def cs]
  split
  · rename_i c more
    split
    · rename_i digit
      have taken : (more.takeWhile isDigitOrGap ++ rest).takeWhile isDigitOrGap = more.takeWhile isDigitOrGap :=
        takeWhile_digits (fun _ => List.mem_takeWhile_imp) stop
      simp only [List.cons_append, fractionPart, digit, if_true, taken]
    · exact none
  · exact none

theorem signPart_starts (cs : List Char) : signPart cs <+: cs := by
  unfold signPart
  split <;> simp

/-- A sign is read again before a digit. -/
theorem signPart_again (cs : List Char) {d : Char} (digit : isDigit d = true) (rest : List Char) :
    signPart (signPart cs ++ d :: rest) = signPart cs := by
  rw [signPart.eq_def cs]
  split
  · rfl
  · rfl
  · unfold signPart
    split <;> simp_all [isDigit]

theorem exponentPart_starts (cs : List Char) : exponentPart cs <+: cs := by
  unfold exponentPart
  split
  · exact List.nil_prefix
  · rename_i c rest
    simp only
    split_ifs
    · exact List.nil_prefix
    · rw [List.cons_prefix_cons]
      exact ⟨rfl, append_starts (signPart_starts rest) <| List.takeWhile_prefix _⟩
    · exact List.nil_prefix

/-- An exponent is read again before what goes on with no row of digits and is no exponent. -/
theorem exponentPart_again (cs : List Char) {rest : List Char} (stop : rest.takeWhile isDigit = [])
    (none : exponentPart rest = []) : exponentPart (exponentPart cs ++ rest) = exponentPart cs := by
  rw [exponentPart.eq_def cs]
  split
  · exact none
  · rename_i c more
    simp only
    split_ifs with letter empty
    · exact none
    · have some : (more.drop (signPart more).length).takeWhile isDigit ≠ [] := by simpa using empty
      have taken : ((more.drop (signPart more).length).takeWhile isDigit ++ rest).takeWhile isDigit
          = (more.drop (signPart more).length).takeWhile isDigit :=
        takeWhile_digits (fun _ => List.mem_takeWhile_imp) stop
      generalize (more.drop (signPart more).length).takeWhile isDigit = digits at some taken
      obtain ⟨d, digits, rfl⟩ := List.exists_cons_of_ne_nil some
      have digit : isDigit d = true := List.mem_takeWhile_imp (taken ▸ List.mem_cons_self)
      have sign : signPart (signPart more ++ d :: (digits ++ rest)) = signPart more := signPart_again more digit _
      rw [List.cons_append] at taken
      simp only [List.cons_append, List.append_assoc, exponentPart, letter, if_true, sign, List.drop_left, taken,
        List.isEmpty_cons, Bool.false_eq_true, if_false]
    · exact none

/-- A suffix is the start of the text it was found in. -/
theorem suffixAmong_starts {suffixes : List (List Char)} {cs suffix : List Char}
    (found : suffixAmong suffixes cs = some suffix) : suffix <+: cs := by
  simpa using List.find?_some found

theorem mem_of_suffixAmong {suffixes : List (List Char)} {cs suffix : List Char}
    (found : suffixAmong suffixes cs = some suffix) : suffix ∈ suffixes :=
  List.mem_of_find?_eq_some found

/-- A suffix is found again before a text that ends a word. -/
theorem suffixAmong_again {suffixes : List (List Char)} {cs suffix rest : List Char}
    (found : suffixAmong suffixes cs = some suffix) (stop : EndsWord rest)
    (continues : ∀ other ∈ suffixes, other.all continuesName = true) :
    suffixAmong suffixes (suffix ++ rest) = some suffix := by
  have starts := suffixAmong_starts found
  obtain ⟨-, before, after, rfl, others⟩ := List.find?_eq_some_iff_append.1 found
  refine List.find?_eq_some_iff_append.2 ⟨by simp, before, after, rfl, fun other member => ?_⟩
  have notBefore : ¬other <+: cs := fun before => by
    simpa [List.isPrefixOf_iff_prefix.2 before] using others other member
  rw [Bool.not_eq_true', Bool.eq_false_iff, ne_eq, List.isPrefixOf_iff_prefix]
  intro again
  obtain shorter | ⟨more, rfl⟩ := List.prefix_or_prefix_of_prefix again (List.prefix_append suffix rest)
  · exact notBefore (shorter.trans starts)
  · -- a longer one would go on with a character that goes on with a word
    cases more with
    | nil => exact notBefore (by simpa using starts)
    | cons c more =>
      refine stop.not_prefix ?_ ((List.prefix_append_right_inj suffix).1 again)
      exact List.all_eq_true.1 (continues _ (List.mem_append_left _ member)) c (by simp)

theorem exists_start {suffixes : List (List Char)} (letters : List Char) {suffix : List Char}
    (starts : ∀ other ∈ suffixes, other.head?.any (letters.contains ·) = true) (known : suffix ∈ suffixes) :
    ∃ c more, suffix = c :: more ∧ c ∈ letters := by
  have start := starts suffix known
  cases suffix with
  | nil => cases start
  | cons c more => exact ⟨c, more, rfl, by simpa using start⟩

/-- A text that no number before it goes on with, other than by a suffix. -/
structure EndsNumber (rest : List Char) : Prop where
  digits : rest.takeWhile isDigitOrGap = []
  fraction : fractionPart rest = []
  exponent : exponentPart rest = []

theorem endsNumber_of_endsWord {rest : List Char} (stop : EndsWord rest) : EndsNumber rest :=
  ⟨stop.takeWhile_eq_nil isDigitOrGap_continues, fractionPart_eq_nil stop, exponentPart_eq_nil stop⟩

/-- No suffix goes on with a row of digits, or is part of a fraction or of an exponent. -/
theorem endsNumber_suffix {suffix : List Char} (known : suffix ∈ floatSuffixes ++ integerSuffixes) (rest : List Char) :
    EndsNumber (suffix ++ rest) := by
  obtain ⟨c, more, rfl, start⟩ := exists_start ['f', 'i', 'u'] (by decide) known
  simp only [List.mem_cons, List.not_mem_nil, or_false] at start
  obtain rfl | rfl | rfl := start <;> exact ⟨List.takeWhile_cons_of_neg (by decide), rfl, by simp [exponentPart]⟩

theorem EndsNumber.takeWhile_isDigit {rest : List Char} (stop : EndsNumber rest) : rest.takeWhile isDigit = [] := by
  have noDigits := stop.digits
  cases rest with
  | nil => rfl
  | cons c more =>
    rw [List.takeWhile_cons] at noDigits ⊢
    split_ifs at noDigits with some
    exact if_neg fun digit => some (by rw [isDigitOrGap, digit, Bool.true_or])

/-- A row of digits does not go on into a fraction. -/
theorem takeWhile_fractionPart (cs : List Char) {rest : List Char} (stop : rest.takeWhile isDigitOrGap = []) :
    (fractionPart cs ++ rest).takeWhile isDigitOrGap = [] := by
  unfold fractionPart
  split
  · split
    · exact List.takeWhile_cons_of_neg (by decide)
    · exact stop
  · exact stop

/-- Neither a row of digits nor a fraction goes on into an exponent. -/
theorem EndsNumber.exponentPart_append {rest : List Char} (stop : EndsNumber rest) (cs : List Char) :
    (exponentPart cs ++ rest).takeWhile isDigitOrGap = [] ∧ fractionPart (exponentPart cs ++ rest) = [] := by
  rw [exponentPart.eq_def cs]
  split
  · exact ⟨stop.digits, stop.fraction⟩
  · simp only
    split_ifs with letter
    · exact ⟨stop.digits, stop.fraction⟩
    · obtain rfl | rfl := letter <;> exact ⟨List.takeWhile_cons_of_neg (by decide), rfl⟩
    · exact ⟨stop.digits, stop.fraction⟩

/-- The digits, the fraction and the exponent of a number, before the rest of its text. -/
structure NumberParts (whole fraction exponent rest : List Char) : Prop where
  digits : (whole ++ (fraction ++ (exponent ++ rest))).takeWhile isDigitOrGap = whole
  fraction : fractionPart (fraction ++ (exponent ++ rest)) = fraction
  exponent : exponentPart (exponent ++ rest) = exponent

/-- Every text is a number, of which all parts may be missing, and a rest. -/
theorem exists_numberParts (cs : List Char) :
    ∃ whole fraction exponent rest, cs = whole ++ (fraction ++ (exponent ++ rest))
      ∧ NumberParts whole fraction exponent rest := by
  obtain ⟨afterWhole, digits⟩ := List.takeWhile_prefix isDigitOrGap (l := cs)
  obtain ⟨afterFraction, fraction⟩ := fractionPart_starts afterWhole
  obtain ⟨rest, exponent⟩ := exponentPart_starts afterFraction
  have whole : cs.takeWhile isDigitOrGap ++ (fractionPart afterWhole ++ (exponentPart afterFraction ++ rest)) = cs := by
    rw [exponent, fraction, digits]
  refine ⟨_, _, _, rest, whole.symm, ?_, ?_, ?_⟩
  · rw [whole]
  · rw [exponent, fraction]
  · rw [exponent]

/-- The parts of a number are the same before every rest that no number goes on with. -/
theorem NumberParts.before {whole fraction exponent rest rest' : List Char}
    (parts : NumberParts whole fraction exponent rest) (stop : EndsNumber rest') :
    NumberParts whole fraction exponent rest' := by
  have exponentAgain := exponentPart_again (exponent ++ rest) stop.takeWhile_isDigit stop.exponent
  have stopExponent := stop.exponentPart_append (exponent ++ rest)
  rw [parts.exponent] at exponentAgain stopExponent
  have fractionAgain := fractionPart_again (fraction ++ (exponent ++ rest)) stopExponent.1 stopExponent.2
  have stopFraction := takeWhile_fractionPart (fraction ++ (exponent ++ rest)) stopExponent.1
  rw [parts.fraction] at fractionAgain stopFraction
  refine ⟨takeWhile_digits (fun c member => ?_) stopFraction, fractionAgain, exponentAgain⟩
  exact List.mem_takeWhile_imp (parts.digits ▸ member)

/-- How a number ends: with the suffix of a float, or of an integer if it has neither fraction nor exponent. -/
def endNumber (position : Nat) (whole fraction exponent rest : List Char) : Except Failure (Lexeme × List Char) :=
  let float (suffix : List Char) : Except Failure (Lexeme × List Char) :=
    .ok (.float (decimal whole fraction exponent).toFloat, whole ++ fraction ++ exponent ++ suffix)
  match suffixAmong floatSuffixes rest with
  | some suffix => float suffix
  | none =>
    if fraction.isEmpty && exponent.isEmpty then
      let spelling := whole ++ (suffixAmong integerSuffixes rest).getD []
      let value := digitsValue whole
      if maxDigits < digitCount whole then .error (.tooManyDigits (digitCount whole) position)
      else if value < 2 ^ (63 : Nat) then .ok (.integer value, spelling)
      else .error (.integerTooLarge spelling position)
    else float []

theorem NumberParts.readNumber_eq {whole fraction exponent rest : List Char}
    (parts : NumberParts whole fraction exponent rest) (position : Nat) :
    readNumber position (whole ++ (fraction ++ (exponent ++ rest)))
      = endNumber position whole fraction exponent rest := by
  simp only [readNumber, parts.digits, List.drop_left, parts.fraction, parts.exponent]
  rfl

/-- No suffix of an integer starts like one of a float. -/
theorem suffixAmong_float_of_integer {suffix : List Char} (known : suffix ∈ integerSuffixes) (rest : List Char) :
    suffixAmong floatSuffixes (suffix ++ rest) = none := by
  obtain ⟨c, more, rfl, start⟩ := exists_start ['i', 'u'] (by decide) known
  simp only [List.mem_cons, List.not_mem_nil, or_false] at start
  obtain rfl | rfl := start <;> rfl

/-- A number ends with the same suffix, or none, before every text that ends a word. -/
theorem endNumber_again {position : Nat} {whole fraction exponent rest : List Char} {lexeme : Lexeme}
    {spelling : List Char} (ends : endNumber position whole fraction exponent rest = .ok (lexeme, spelling)) :
    ∃ suffix, spelling = whole ++ (fraction ++ (exponent ++ suffix)) ∧ suffix <+: rest
      ∧ (suffix = [] ∨ suffix ∈ floatSuffixes ++ integerSuffixes)
      ∧ (∀ position', endNumber position' whole fraction exponent rest = .ok (lexeme, spelling))
      ∧ ∀ position' rest', EndsWord rest' →
        endNumber position' whole fraction exponent (suffix ++ rest') = .ok (lexeme, spelling) := by
  unfold endNumber at ends
  simp only at ends
  split at ends
  · rename_i suffix found
    cases ends
    refine ⟨suffix, by simp, suffixAmong_starts found, .inr (List.mem_append_left _ (mem_of_suffixAmong found)), ?_, ?_⟩
    · simp [endNumber, found]
    · intro position' rest' stop
      have again := suffixAmong_again found stop (by decide)
      simp only [endNumber, again]
  · rename_i none
    split_ifs at ends with integer many small
    · cases ends
      obtain ⟨noFraction, noExponent⟩ : fraction = [] ∧ exponent = [] := by simpa using integer
      subst noFraction noExponent
      cases found : suffixAmong integerSuffixes rest with
      | none =>
        refine ⟨[], by simp, List.nil_prefix, .inl rfl, ?_, ?_⟩
        · simp [endNumber, none, many, small, found]
        · intro position' rest' stop
          simp [endNumber, many, small, suffixAmong_eq_none stop floatSuffixes_start,
            suffixAmong_eq_none stop integerSuffixes_start]
      | some suffix =>
        have known := mem_of_suffixAmong found
        refine ⟨suffix, by simp, suffixAmong_starts found, .inr (List.mem_append_right _ known), ?_, ?_⟩
        · simp [endNumber, none, many, small, found]
        · intro position' rest' stop
          simp [endNumber, many, small, suffixAmong_float_of_integer known, suffixAmong_again found stop (by decide)]
    · cases ends
      refine ⟨[], by simp, List.nil_prefix, .inl rfl, ?_, ?_⟩
      · simp [endNumber, none, integer]
      · intro position' rest' stop
        simp [endNumber, integer, suffixAmong_eq_none stop floatSuffixes_start]

theorem newline_not_mem_takeWhile {p : Char → Bool} (no : p '\n' = false) (cs : List Char) : '\n' ∉ cs.takeWhile p :=
  fun member => by simp [List.mem_takeWhile_imp member] at no

theorem newline_not_mem_fractionPart (cs : List Char) : '\n' ∉ fractionPart cs := by
  unfold fractionPart
  split
  · rename_i c rest
    split
    · rename_i digit
      have start : '\n' ≠ c := by
        rintro rfl
        exact absurd digit (by decide)
      simp [start, newline_not_mem_takeWhile (p := isDigitOrGap) (by decide)]
    · exact List.not_mem_nil
  · exact List.not_mem_nil

theorem newline_not_mem_exponentPart (cs : List Char) : '\n' ∉ exponentPart cs := by
  unfold exponentPart
  split
  · exact List.not_mem_nil
  · rename_i c rest
    have sign : '\n' ∉ signPart rest := by
      unfold signPart
      split <;> decide
    simp only
    split_ifs with letter
    · exact List.not_mem_nil
    · have start : '\n' ≠ c := by rintro rfl; simp at letter
      simp [start, sign, newline_not_mem_takeWhile (p := isDigit) (by decide)]
    · exact List.not_mem_nil

/-- A number is a word of its own wherever it stands, and before every text that ends a word. -/
theorem readNumber_again {position : Nat} {cs : List Char} {lexeme : Lexeme} {spelling : List Char}
    (read : readNumber position cs = .ok (lexeme, spelling)) :
    cs.takeWhile isDigitOrGap <+: spelling ∧ spelling <+: cs ∧ '\n' ∉ spelling
      ∧ (∀ position', readNumber position' cs = .ok (lexeme, spelling))
      ∧ ∀ position' rest, EndsWord rest → readNumber position' (spelling ++ rest) = .ok (lexeme, spelling) := by
  obtain ⟨whole, fraction, exponent, rest, rfl, parts⟩ := exists_numberParts cs
  rw [parts.readNumber_eq] at read
  obtain ⟨suffix, rfl, starts, known, anywhere, again⟩ := endNumber_again read
  refine ⟨?_, ?_, ?_, ?_, ?_⟩
  · rw [parts.digits]
    exact List.prefix_append _ _
  · obtain ⟨tail, rfl⟩ := starts
    exact ⟨tail, by simp⟩
  · have noSuffix : '\n' ∉ suffix := by
      obtain rfl | known := known
      · exact List.not_mem_nil
      · have none : ∀ suffix ∈ floatSuffixes ++ integerSuffixes, suffix.contains '\n' = false := by decide
        simpa using none suffix known
    simp only [List.mem_append, not_or]
    refine ⟨?_, ?_, ?_, noSuffix⟩
    · rw [← parts.digits]
      exact newline_not_mem_takeWhile (by decide) _
    · rw [← parts.fraction]
      exact newline_not_mem_fractionPart _
    · rw [← parts.exponent]
      exact newline_not_mem_exponentPart _
  · intro position'
    rw [parts.readNumber_eq]
    exact anywhere position'
  · intro position' rest' stop
    have ends : EndsNumber (suffix ++ rest') := by
      obtain rfl | known := known
      · exact endsNumber_of_endsWord stop
      · exact endsNumber_suffix known rest'
    simp only [List.append_assoc]
    rw [(parts.before ends).readNumber_eq]
    exact again position' rest' stop

/-! ## Texts -/

/-- The body of a text stands before a quote, and is the body before every quote. -/
theorem textBody_again {cs body : List Char} (found : textBody cs = some body) :
    body ++ ['"'] <+: cs ∧ ∀ rest, textBody (body ++ '"' :: rest) = some body := by
  refine textBody_induction (fun rest => ?_) (fun c rest body line ih => ?_)
    (fun c rest body quote backslash ih => ?_) found
  · exact ⟨⟨rest, rfl⟩, fun _ => rfl⟩
  · refine ⟨by simpa using ih.1, fun more => ?_⟩
    rw [List.cons_append, List.cons_append, textBody.eq_4 _ _ line, ih.2]
    rfl
  · refine ⟨by simpa using ih.1, fun more => ?_⟩
    rw [List.cons_append, textBody_plain quote backslash, ih.2]
    rfl

/-- Escapes are resolved to the same wherever the text stands. -/
theorem unescape_anywhere {position : Nat} {body content : List Char}
    (resolved : unescape position body = .ok content) (position' : Nat) : unescape position' body = .ok content := by
  fun_induction unescape position body generalizing content with
  | case1 | case3 => cases resolved
  | case2 c rest value escape ih =>
    obtain ⟨inner, inside, rfl⟩ := exists_of_map_eq_ok resolved
    simp only [unescape, escape, ih inside]
    rfl
  | case4 c rest backslash alone ih =>
    obtain ⟨inner, inside, rfl⟩ := exists_of_map_eq_ok resolved
    rw [unescape.eq_3 _ _ _ backslash alone, ih inside]
    rfl
  | case5 => exact resolved

/-- A text in quotes is a word of its own wherever it stands, and before every text. -/
theorem readText_again {position : Nat} {cs : List Char} {lexeme : Lexeme} {spelling : List Char}
    (read : readText position cs = .ok (lexeme, spelling)) :
    ∃ inner, spelling = '"' :: inner ∧ inner <+: cs ∧ (∃ content, lexeme = .text content)
      ∧ (∀ position', readText position' cs = .ok (lexeme, spelling))
      ∧ ∀ position' rest, readText position' (inner ++ rest) = .ok (lexeme, spelling) := by
  unfold readText at read
  split at read
  · cases read
  · rename_i body found
    obtain ⟨content, resolved, word⟩ := exists_of_map_eq_ok read
    cases word
    obtain ⟨starts, again⟩ := textBody_again found
    refine ⟨body ++ ['"'], rfl, starts, ⟨_, rfl⟩, fun position' => ?_, fun position' rest => ?_⟩
    · simp only [readText, found, unescape_anywhere resolved position']
      rfl
    · simp only [readText, List.append_assoc, List.singleton_append, again, unescape_anywhere resolved position']
      rfl

/-! ## Symbols -/

/-- A symbol stands at the start of its text, does not go over the end of a line, and is the symbol before white space
too. -/
theorem symbol?_again {cs : List Char} {lexeme : Lexeme} {spelling : List Char}
    (found : symbol? cs = some (lexeme, spelling)) :
    spelling ≠ [] ∧ spelling <+: cs ∧ '\n' ∉ spelling
      ∧ ∀ rest, Scan.StartsBlank rest → symbol? (spelling ++ rest) = some (lexeme, spelling) := by
  unfold symbol? at found
  split at found
  all_goals cases found
  all_goals refine ⟨by simp, ⟨_, rfl⟩, by decide, fun rest blank => ?_⟩
  all_goals
    obtain rfl | ⟨c, tail, rfl, white⟩ := blank.cases
    · rfl
    · obtain rfl | rfl | rfl | rfl := white <;> rfl

/-! ## All words -/

/-- What is read of a text starts with its first character and is read wherever the text stands, and before white space.
Only a text in quotes goes over the end of a line. -/
theorem read_again {position : Nat} {c : Char} {cs : List Char} {lexeme : Lexeme} {spelling : List Char}
    (found : read position c cs = .ok (lexeme, spelling)) :
    ∃ inner, spelling = c :: inner ∧ inner <+: cs ∧ ('\n' ∈ spelling → ∃ content, lexeme = .text content)
      ∧ (∀ position', read position' c cs = .ok (lexeme, spelling))
      ∧ ∀ position' rest, Scan.StartsBlank rest → read position' c (inner ++ rest) = .ok (lexeme, spelling) := by
  simp only [read] at found
  split_ifs at found with digit quote name
  · obtain ⟨digits, starts, newline, anywhere, again⟩ := readNumber_again found
    have nonempty : spelling ≠ [] := by
      rintro rfl
      rw [List.takeWhile_cons_of_pos (by rw [isDigitOrGap, digit, Bool.true_or])] at digits
      simp at digits
    obtain ⟨inner, rfl, within⟩ := (List.prefix_cons_iff.1 starts).resolve_left nonempty
    refine ⟨inner, rfl, within, fun member => absurd member newline, ?_, ?_⟩
    · intro position'
      rw [read_of_digit digit, anywhere]
    · intro position' rest blank
      rw [read_of_digit digit]
      exact again position' rest blank.endsWord
  · subst quote
    obtain ⟨inner, rfl, within, text, anywhere, again⟩ := readText_again found
    refine ⟨inner, rfl, within, fun _ => text, fun position' => ?_, fun position' rest _ => ?_⟩
    · rw [read_quote, anywhere]
    · rw [read_quote, again]
  · cases found
    have continues : ∀ d ∈ cs.takeWhile continuesName, continuesName d = true := fun _ => List.mem_takeWhile_imp
    refine ⟨_, rfl, List.takeWhile_prefix _, fun member => ?_, fun position' => ?_, fun position' rest blank => ?_⟩
    · obtain same | inside := List.mem_cons.1 member
      · exact absurd same.symm (start_of_name name).2.2.2
      · exact absurd inside (newline_not_mem_takeWhile (by decide) _)
    · exact read_of_name name position' cs
    · have taken := takeWhile_digits continues (blank.endsWord.takeWhile_eq_nil fun _ => .inr)
      rw [read_of_name name, taken]
  · split at found
    · rename_i word symbol
      cases found
      obtain ⟨nonempty, starts, newline, again⟩ := symbol?_again symbol
      obtain ⟨inner, rfl, within⟩ := (List.prefix_cons_iff.1 starts).resolve_left nonempty
      exact ⟨inner, rfl, within, fun member => absurd member newline, fun position' => read_of_symbol symbol,
        fun position' rest blank => read_of_symbol (again rest blank)⟩
    · cases found

/-- A word that is read from a text is the start of that text, and its spelling is read as the same word before white
space. -/
theorem exists_readsAs_of_read {position : Nat} {c : Char} {cs : List Char} {lexeme : Lexeme} {spelling : List Char}
    (found : read position c cs = .ok (lexeme, spelling)) (space : Scan.isSpace c = false) (line : c ≠ '\n') :
    ∃ rest, c :: cs = spelling ++ rest ∧ ReadsAs lexeme rest spelling
      ∧ ('\n' ∈ spelling → ∃ content, lexeme = .text content)
      ∧ ∀ gap, Scan.StartsBlank gap → ReadsAs lexeme gap spelling := by
  obtain ⟨inner, rfl, ⟨rest, rfl⟩, newline, anywhere, again⟩ := read_again found
  exact ⟨rest, rfl, .mk space line anywhere, newline, fun gap blank => .mk space line fun position' =>
    again position' gap blank⟩

end Word

end NamedExpr
