import NamedExpr.Proofs.ShortestDecimal
import NamedExpr.Token.Word
/-!
# Numbers as they are written

A number that is written out is read as the whole word and as the same number, whatever follows it, unless
that goes on with the word (`EndsWord`). For integers this is `readNumber_toDigits`. A float is written in
one of two layouts; both are a whole part, a fraction and an exponent (`FloatText`), and the decimal that
these spell has the nearest number of the decimal that was laid out (`floatText_magnitude`).
-/

namespace NamedExpr

open Text

/-- A text that no number or name before it goes on with: it starts with no digit, letter or underscore, nor
with a point before a digit. -/
inductive EndsWord : List Char → Prop where
  | nil : EndsWord []
  | cons {c : Char} {rest : List Char} (digit : isDigit c = false) (name : continuesName c = false)
      (point : c = '.' → ∀ d, rest.head? = some d → isDigit d = false) : EndsWord (c :: rest)

namespace EndsWord

/-- A character other than the point that neither is a digit nor goes on with a name. -/
theorem of_head {c : Char} (rest : List Char) (digit : isDigit c = false) (name : continuesName c = false)
    (point : c ≠ '.') : EndsWord (c :: rest) :=
  .cons digit name fun h => absurd h point

/-- Characters that go on with a word are not found at its end. -/
theorem takeWhile_eq_nil {p : Char → Bool} {rest : List Char} (h : EndsWord rest)
    (only : ∀ c, p c = true → isDigit c = true ∨ continuesName c = true) : rest.takeWhile p = [] := by
  cases h with
  | nil => rfl
  | cons digit name _ =>
    apply List.takeWhile_cons_of_neg
    intro holds
    rcases only _ holds with is | is
    · simp [is] at digit
    · simp [is] at name

/-- No word that starts like a name stands at the end of a word. -/
theorem not_prefix {suffix rest : List Char} (h : EndsWord rest) (starts : suffix.head?.any continuesName = true) :
    ¬ suffix <+: rest := by
  rintro ⟨tail, rfl⟩
  cases suffix with
  | nil => simp at starts
  | cons s suffix =>
    rw [List.head?_cons, Option.any_some] at starts
    cases h with
    | cons _ name _ => simp [starts] at name

end EndsWord

theorem isDigitOrGap_continues (c : Char) (h : Word.isDigitOrGap c = true) :
    isDigit c = true ∨ continuesName c = true := by
  simp only [Word.isDigitOrGap, Bool.or_eq_true, beq_iff_eq] at h
  rcases h with digit | rfl
  · exact .inl digit
  · exact .inr (by decide)

/-! ## Rows of digits -/

theorem isDigit_of_ascii {c : Char} (h : c.isDigit = true) : isDigit c = true := by
  have range : 48 ≤ c.toNat ∧ c.toNat ≤ 57 := by
    simp only [Char.isDigit, ge_iff_le, Bool.and_eq_true, decide_eq_true_eq, UInt32.le_iff_toNat_le] at h
    exact h
  simp only [isDigit]
  rw [if_pos (by omega), h]

/-- A row of the digits `0` to `9`. -/
def AsciiDigits (digits : List Char) : Prop := ∀ c ∈ digits, c.isDigit = true

namespace AsciiDigits

theorem toDigits (n : Nat) : AsciiDigits (Nat.toDigits 10 n) := fun _ h =>
  Nat.isDigit_of_mem_toDigits (by decide) (by decide) h

theorem zeros (n : Nat) : AsciiDigits (List.replicate n '0') := fun c h => by
  rw [List.eq_of_mem_replicate h]
  decide

theorem append {a b : List Char} (ha : AsciiDigits a) (hb : AsciiDigits b) : AsciiDigits (a ++ b) :=
  fun c h => (List.mem_append.1 h).elim (ha c) (hb c)

theorem isDigit {digits : List Char} (h : AsciiDigits digits) : ∀ c ∈ digits, Text.isDigit c = true :=
  fun c hc => isDigit_of_ascii (h c hc)

theorem isDigitOrGap {digits : List Char} (h : AsciiDigits digits) :
    ∀ c ∈ digits, Word.isDigitOrGap c = true := fun c hc => by
  simp [Word.isDigitOrGap, h.isDigit c hc]

theorem number_eq {digits : List Char} (h : AsciiDigits digits) :
    number digits = Nat.ofDigitChars 10 digits 0 := by
  rw [number, Nat.ofDigitChars_eq_foldl]
  generalize (0 : Nat) = start
  induction digits generalizing start with
  | nil => rfl
  | cons c rest ih =>
    have range : c.toNat ≤ 57 := by
      have first := h c List.mem_cons_self
      simp only [Char.isDigit, ge_iff_le, Bool.and_eq_true, decide_eq_true_eq, UInt32.le_iff_toNat_le] at first
      exact first.2
    have value : digitValue c = c.toNat - '0'.toNat := by
      simp only [digitValue]
      rw [if_pos (by omega)]
      rfl
    rw [List.foldl_cons, List.foldl_cons, value]
    exact ih (fun d hd => h d (List.mem_cons_of_mem _ hd)) _

/-- No underscore is a digit. -/
theorem filter_eq {digits : List Char} (h : AsciiDigits digits) : digits.filter (· ≠ '_') = digits := by
  refine List.filter_eq_self.2 fun c hc => decide_eq_true ?_
  rintro rfl
  simpa using h _ hc

/-- Digits without underscores stand for the number that they write. -/
theorem digitsValue_eq {digits : List Char} (h : AsciiDigits digits) :
    Word.digitsValue digits = Nat.ofDigitChars 10 digits 0 := by
  rw [Word.digitsValue, h.filter_eq, h.number_eq]

theorem digitCount_eq {digits : List Char} (h : AsciiDigits digits) : Word.digitCount digits = digits.length := by
  rw [Word.digitCount, h.filter_eq]

end AsciiDigits

namespace Word

theorem takeWhile_digits {p : Char → Bool} {digits rest : List Char} (hp : ∀ c ∈ digits, p c = true)
    (stop : rest.takeWhile p = []) : (digits ++ rest).takeWhile p = digits := by
  rw [List.takeWhile_append_of_pos hp, stop, List.append_nil]

theorem suffixAmong_eq_none {suffixes : List (List Char)} {rest : List Char} (h : EndsWord rest)
    (starts : ∀ suffix ∈ suffixes, suffix.head?.any continuesName = true) : suffixAmong suffixes rest = none :=
  List.find?_eq_none.2 fun suffix member => by simpa using h.not_prefix (starts suffix member)

theorem floatSuffixes_start : ∀ suffix ∈ floatSuffixes, suffix.head?.any continuesName = true := by decide

theorem integerSuffixes_start : ∀ suffix ∈ integerSuffixes, suffix.head?.any continuesName = true := by decide

/-! ## Integers -/

theorem fractionPart_eq_nil {rest : List Char} (h : EndsWord rest) : fractionPart rest = [] := by
  unfold fractionPart
  split
  · cases h with
    | cons _ _ point =>
      have no := point rfl _ rfl
      simp [no]
  · rfl

theorem exponentPart_eq_nil {rest : List Char} (h : EndsWord rest) : exponentPart rest = [] := by
  cases h with
  | nil => rfl
  | @cons c rest _ name _ =>
    rw [exponentPart, if_neg]
    rintro (rfl | rfl) <;> simp [continuesName] at name

/-- An integer that is written out is read as itself. -/
theorem readNumber_toDigits {n : Nat} (small : n < 2 ^ 63) {rest : List Char} (h : EndsWord rest)
    (position : Nat) :
    readNumber position (Nat.toDigits 10 n ++ rest) = .ok (.integer n, Nat.toDigits 10 n) := by
  have digits := AsciiDigits.toDigits n
  have whole : (Nat.toDigits 10 n ++ rest).takeWhile isDigitOrGap = Nat.toDigits 10 n :=
    takeWhile_digits digits.isDigitOrGap (h.takeWhile_eq_nil isDigitOrGap_continues)
  have value : digitsValue (Nat.toDigits 10 n) = n := by
    rw [digits.digitsValue_eq, Nat.ofDigitChars_ten_toDigits]
  have few : ¬maxDigits < digitCount (Nat.toDigits 10 n) := by
    have length := (Nat.length_toDigits_le_iff (by decide) (by decide)).2 (show n < 10 ^ 19 by omega)
    rw [digits.digitCount_eq, maxDigits]
    omega
  simp only [readNumber, whole, List.drop_left, fractionPart_eq_nil h, List.length_nil, List.drop_zero,
    exponentPart_eq_nil h, suffixAmong_eq_none h floatSuffixes_start, suffixAmong_eq_none h integerSuffixes_start,
    value, if_neg few]
  simpa using small

/-! ## Floats -/

/-- A fraction as it is written: nothing, or a point and digits. -/
inductive IsFraction : List Char → Prop where
  | none : IsFraction []
  | digits {digits : List Char} (some : digits ≠ []) (ascii : AsciiDigits digits) : IsFraction ('.' :: digits)

/-- An exponent as it is written: nothing, or `e`, perhaps a sign, and digits. -/
inductive IsExponent : List Char → Prop where
  | none : IsExponent []
  | plain {digits : List Char} (some : digits ≠ []) (ascii : AsciiDigits digits) : IsExponent ('e' :: digits)
  | signed {sign : Char} {digits : List Char} (sign_eq : sign = '+' ∨ sign = '-') (some : digits ≠ [])
      (ascii : AsciiDigits digits) : IsExponent ('e' :: sign :: digits)

/-- A text that writes a decimal as a float: digits, and then a fraction or an exponent or both. -/
inductive FloatText : List Char → Decimal → Prop where
  | mk {whole fraction exponent : List Char} (some : whole ≠ []) (ascii : AsciiDigits whole)
      (isFraction : IsFraction fraction) (isExponent : IsExponent exponent)
      (float : fraction ≠ [] ∨ exponent ≠ []) :
      FloatText (whole ++ fraction ++ exponent) (decimal whole fraction exponent)

theorem isDigit_of_head {digits : List Char} {c : Char} {rest : List Char} (ascii : AsciiDigits digits)
    (head : digits = c :: rest) : Text.isDigit c = true :=
  ascii.isDigit c (head ▸ List.mem_cons_self)

theorem exponentPart_append {exponent rest : List Char} (is : IsExponent exponent) (h : EndsWord rest) :
    exponentPart (exponent ++ rest) = exponent := by
  have stop : rest.takeWhile Text.isDigit = [] := h.takeWhile_eq_nil fun _ digit => .inl digit
  cases is with
  | none => exact exponentPart_eq_nil h
  | plain some ascii =>
    obtain ⟨d, digits, rfl⟩ := List.exists_cons_of_ne_nil some
    have digit := isDigit_of_head ascii rfl
    have sign : signPart (d :: (digits ++ rest)) = [] := by
      unfold signPart
      split <;> simp_all [Text.isDigit]
    have taken := takeWhile_digits ascii.isDigit stop
    simp only [List.cons_append] at taken
    simp [exponentPart, sign, taken]
  | signed sign_eq some ascii =>
    obtain ⟨d, digits, rfl⟩ := List.exists_cons_of_ne_nil some
    have taken := takeWhile_digits ascii.isDigit stop
    simp only [List.cons_append] at taken
    rcases sign_eq with rfl | rfl <;> simp [exponentPart, signPart, taken]

/-- The fraction ends where the exponent, or what follows the number, begins. -/
theorem fractionPart_append {fraction exponent rest : List Char} (isFraction : IsFraction fraction)
    (isExponent : IsExponent exponent) (h : EndsWord rest) :
    fractionPart (fraction ++ (exponent ++ rest)) = fraction := by
  have stop : (exponent ++ rest).takeWhile isDigitOrGap = [] := by
    cases isExponent with
    | none => exact h.takeWhile_eq_nil isDigitOrGap_continues
    | plain => exact List.takeWhile_cons_of_neg (by decide)
    | signed => exact List.takeWhile_cons_of_neg (by decide)
  cases isFraction with
  | none =>
    cases isExponent with
    | none => exact fractionPart_eq_nil h
    | plain => rfl
    | signed => rfl
  | digits some ascii =>
    obtain ⟨d, digits, rfl⟩ := List.exists_cons_of_ne_nil some
    have rest_ascii : ∀ c ∈ digits, isDigitOrGap c = true := fun c hc =>
      ascii.isDigitOrGap c (List.mem_cons_of_mem _ hc)
    simp [fractionPart, isDigit_of_head ascii rfl, takeWhile_digits rest_ascii stop]

/-- The whole part ends where the fraction or the exponent, or what follows the number, begins. -/
theorem takeWhile_parts {fraction exponent rest : List Char} (isFraction : IsFraction fraction)
    (isExponent : IsExponent exponent) (h : EndsWord rest) :
    (fraction ++ (exponent ++ rest)).takeWhile isDigitOrGap = [] := by
  cases isFraction with
  | none =>
    cases isExponent with
    | none => exact h.takeWhile_eq_nil isDigitOrGap_continues
    | plain => exact List.takeWhile_cons_of_neg (by decide)
    | signed => exact List.takeWhile_cons_of_neg (by decide)
  | digits => exact List.takeWhile_cons_of_neg (by decide)

/-- A float that is written out is read as the number of its decimal. -/
theorem readNumber_floatText {text : List Char} {d : Decimal} (is : FloatText text d) {rest : List Char}
    (h : EndsWord rest) (position : Nat) :
    readNumber position (text ++ rest) = .ok (.float d.toFloat, text) := by
  obtain ⟨some, ascii, isFraction, isExponent, float⟩ := is
  rename_i whole fraction exponent
  have first := takeWhile_digits ascii.isDigitOrGap (takeWhile_parts isFraction isExponent h)
  have written : (fraction.isEmpty && exponent.isEmpty) = false := by
    rcases float with h | h <;> simp [h]
  simp only [readNumber, List.append_assoc, first, List.drop_left, fractionPart_append isFraction isExponent h,
    exponentPart_append isExponent h, suffixAmong_eq_none h floatSuffixes_start, written]
  simp

/-! ## The two layouts of floats -/

/-- The decimal of digits around a point. -/
theorem decimal_fraction {whole digits : List Char} (exponent : List Char) (ascii : AsciiDigits (whole ++ digits)) :
    decimal whole ('.' :: digits) exponent
      = ⟨Nat.ofDigitChars 10 (whole ++ digits) 0, exponentValue exponent - digits.length⟩ := by
  have tail : AsciiDigits digits := fun c hc => ascii c (List.mem_append_right _ hc)
  simp only [decimal, List.drop_one, List.tail_cons, tail.filter_eq, ascii.digitsValue_eq]

/-- The decimal of digits without a point. -/
theorem decimal_whole {whole : List Char} (exponent : List Char) (ascii : AsciiDigits whole) :
    decimal whole [] exponent = ⟨Nat.ofDigitChars 10 whole 0, exponentValue exponent⟩ := by
  simp [decimal, ascii.digitsValue_eq]

/-- Zeros in front of a number do not change it. -/
theorem ofDigitChars_zeros (k : Nat) (digits : List Char) :
    Nat.ofDigitChars 10 (List.replicate k '0' ++ digits) 0 = Nat.ofDigitChars 10 digits 0 := by
  rw [Nat.ofDigitChars_append, Nat.ofDigitChars_replicate_zero, Nat.mul_zero]

theorem isExponent_exponentText (weight : Int) : IsExponent (Layout.exponentText weight) :=
  .signed (by split <;> simp) (by simp)
    (.append (.zeros _) (.toDigits _))

/-- An exponent that is written out has its value. -/
theorem exponentValue_exponentText (weight : Int) : exponentValue (Layout.exponentText weight) = weight := by
  have ascii : AsciiDigits (List.replicate (2 - (Nat.toDigits 10 weight.natAbs).length) '0'
      ++ Nat.toDigits 10 weight.natAbs) := .append (.zeros _) (.toDigits _)
  have value : number (List.replicate (2 - (Nat.toDigits 10 weight.natAbs).length) '0'
      ++ Nat.toDigits 10 weight.natAbs) = weight.natAbs := by
    rw [ascii.number_eq, ofDigitChars_zeros, Nat.ofDigitChars_ten_toDigits]
  rw [Layout.exponentText]
  split
  · simp only [exponentValue, value]
    omega
  · simp only [exponentValue, value]
    omega

/-- The layout with an exponent writes the decimal itself. -/
theorem floatText_scientific (d : Decimal) :
    FloatText (Layout.scientific (Nat.toDigits 10 d.digits) (d.point - 1)) d := by
  have ascii := AsciiDigits.toDigits d.digits
  have value : Nat.ofDigitChars 10 (Nat.toDigits 10 d.digits) 0 = d.digits := Nat.ofDigitChars_ten_toDigits
  have point : d.point = (Nat.toDigits 10 d.digits).length + d.exponent := rfl
  have exponent := isExponent_exponentText (d.point - 1)
  obtain ⟨first, rest, shape⟩ := List.exists_cons_of_ne_nil (Nat.toDigits_ne_nil : Nat.toDigits 10 d.digits ≠ [])
  rw [shape] at ascii value point ⊢
  have head : AsciiDigits [first] := fun c hc => ascii c (List.mem_cons.2 (.inl (List.mem_singleton.1 hc)))
  have float : Layout.exponentText (d.point - 1) ≠ [] := by simp [Layout.exponentText]
  cases rest with
  | nil =>
    have text := FloatText.mk (by simp) head .none exponent (.inr float)
    rw [decimal_whole _ head, value, exponentValue_exponentText, point] at text
    simpa [Layout.scientific, point] using text
  | cons second rest =>
    have tail : AsciiDigits (second :: rest) := fun c hc => ascii c (List.mem_cons_of_mem _ hc)
    have text := FloatText.mk (by simp) head (.digits (by simp) tail) exponent (.inr float)
    rw [decimal_fraction _ ascii, exponentValue_exponentText] at text
    have shift : d.point - 1 - ((second :: rest).length : Int) = d.exponent := by
      rw [point]
      simp only [List.length_cons]
      omega
    rw [shift] at text
    simpa [Layout.scientific, value] using text

/-- Digits on both sides of a point. -/
theorem floatText_point {whole tail : List Char} {n : Nat} {exponent : Int} (before : whole ≠ []) (after : tail ≠ [])
    (ascii : AsciiDigits (whole ++ tail)) (value : Nat.ofDigitChars 10 (whole ++ tail) 0 = n)
    (places : -(tail.length : Int) = exponent) : FloatText (whole ++ '.' :: tail) ⟨n, exponent⟩ := by
  have first : AsciiDigits whole := fun c hc => ascii c (List.mem_append_left _ hc)
  have rest : AsciiDigits tail := fun c hc => ascii c (List.mem_append_right _ hc)
  have text := FloatText.mk before first (.digits after rest) .none (.inl (by simp))
  rw [decimal_fraction _ ascii, List.append_nil, value, exponentValue, Int.zero_sub, places] at text
  exact text

/-- Without an exponent a decimal has digits on both sides of a point, or is a whole number with zeros for its exponent. -/
theorem positional_cases (d : Decimal) :
    (∃ whole places, whole ≠ [] ∧ places ≠ [] ∧ AsciiDigits (whole ++ places)
        ∧ Nat.ofDigitChars 10 (whole ++ places) 0 = d.digits ∧ -(places.length : Int) = d.exponent
        ∧ ∀ keepsPoint, Layout.positional keepsPoint (Nat.toDigits 10 d.digits) d.point = whole ++ '.' :: places)
      ∨ ∃ (whole : List Char) (k : Nat), whole ≠ [] ∧ AsciiDigits whole ∧ Nat.ofDigitChars 10 whole 0 = d.digits * 10 ^ k
        ∧ (k : Int) = d.exponent
        ∧ ∀ keepsPoint, Layout.positional keepsPoint (Nat.toDigits 10 d.digits) d.point
          = whole ++ if keepsPoint then ['.', '0'] else [] := by
  have ascii := AsciiDigits.toDigits d.digits
  have value : Nat.ofDigitChars 10 (Nat.toDigits 10 d.digits) 0 = d.digits := Nat.ofDigitChars_ten_toDigits
  have point : d.point = (Nat.toDigits 10 d.digits).length + d.exponent := rfl
  have nonempty : Nat.toDigits 10 d.digits ≠ [] := Nat.toDigits_ne_nil
  generalize Nat.toDigits 10 d.digits = digits at ascii value point nonempty ⊢
  simp only [Layout.positional]
  by_cases below : d.point ≤ 0
  · -- the number is below one: a zero, the point, zeros and the digits
    have number : Nat.ofDigitChars 10 (['0'] ++ (List.replicate (-d.point).toNat '0' ++ digits)) 0 = d.digits := by
      rw [← List.append_assoc, show ['0'] = List.replicate 1 '0' from rfl, List.replicate_append_replicate,
        ofDigitChars_zeros, value]
    have places : -((List.replicate (-d.point).toNat '0' ++ digits).length : Int) = d.exponent := by
      rw [List.length_append, List.length_replicate]
      omega
    exact .inl ⟨['0'], _, by simp, by simp [nonempty], .append (.zeros 1) (.append (.zeros _) ascii), number, places,
      fun _ => if_pos below⟩
  · by_cases whole : digits.length ≤ d.point.toNat
    · have number : Nat.ofDigitChars 10 (digits ++ List.replicate (d.point.toNat - digits.length) '0') 0
          = d.digits * 10 ^ (d.point.toNat - digits.length) := by
        rw [Nat.ofDigitChars_append, Nat.ofDigitChars_replicate_zero, value, Nat.mul_comm]
      exact .inr ⟨_, d.point.toNat - digits.length, by simp [nonempty], .append ascii (.zeros _), number, by omega, fun _ => by
        rw [if_neg below, if_pos whole]⟩
    · -- the point stands among the digits
      have before : digits.take d.point.toNat ≠ [] := List.ne_nil_of_length_pos (by
        rw [List.length_take]
        omega)
      have after : digits.drop d.point.toNat ≠ [] := List.ne_nil_of_length_pos (by
        rw [List.length_drop]
        omega)
      have places : -((digits.drop d.point.toNat).length : Int) = d.exponent := by
        rw [List.length_drop]
        omega
      have all : digits.take d.point.toNat ++ digits.drop d.point.toNat = digits := List.take_append_drop _ _
      exact .inl ⟨_, _, before, after, all.symm ▸ ascii, all.symm ▸ value, places, fun _ => by
        rw [if_neg below, if_neg whole]⟩

/-- The layout without an exponent writes a decimal of the same nearest number. -/
theorem floatText_positional (d : Decimal) :
    ∃ d', FloatText (Layout.positional true (Nat.toDigits 10 d.digits) d.point) d'
      ∧ d'.nearestBits = d.nearestBits := by
  obtain ⟨whole, places, before, after, ascii, value, exponent, text⟩ | ⟨whole, k, some, ascii, value, exponent, text⟩ :=
    positional_cases d
  · rw [text]
    exact ⟨d, floatText_point before after ascii value exponent, rfl⟩
  · -- a whole number ends in a point and one more zero
    have number : Nat.ofDigitChars 10 (whole ++ ['0']) 0 = d.digits * 10 ^ (k + 1) := by
      rw [Nat.ofDigitChars_append, show ['0'] = List.replicate 1 '0' from rfl, Nat.ofDigitChars_replicate_zero, value]
      ring
    have places : -((['0'] : List Char).length : Int) = d.exponent - ((k + 1 : Nat) : Int) := by
      rw [List.length_singleton]
      omega
    rw [text]
    exact ⟨_, floatText_point some (by simp) (.append ascii (.zeros 1)) number places, Decimal.nearestBits_shift _ _ _⟩

/-- What a float literal writes for a decimal is read as a decimal of the same nearest number. -/
theorem floatText_magnitude (d : Decimal) :
    ∃ d', FloatText (Layout.literal.magnitude d) d' ∧ d'.nearestBits = d.nearestBits := by
  rw [Layout.magnitude]
  split
  · exact ⟨d, floatText_scientific d, rfl⟩
  · exact floatText_positional d

end Word

end NamedExpr
