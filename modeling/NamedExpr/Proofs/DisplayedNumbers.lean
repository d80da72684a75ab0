import NamedExpr.Proofs.Parts
import NamedExpr.Proofs.Words
import NamedExpr.Proofs.WrittenOut
/-!
# Numbers on display

A value that is a number is displayed from any text that spells it, a sign and a decimal that reads back
(`Layout.Spells`): the text is written out, with the sign and the exact value of the decimal (`Layout.displayed_of_spells`).
Since the decimal reads back, a number that is finite is known from its text (`Layout.eq_of_displayed`), and the text is
none of the names for numbers that are not (`Layout.displayed_ne_name`). The literal of a number spells it
(`Layout.spells_literal`), so this is how values are rendered.
-/

namespace NamedExpr

open Text Binary64

namespace Decimal

/-- The number nearest to the shortest decimal of a magnitude is that magnitude. -/
theorem toFloat_shortest (mantissa : Nat) (exponent : Int) :
    (shortest mantissa exponent).toFloat = ofParts false mantissa exponent := by
  by_cases zero : mantissa = 0
  · subst zero
    simp [toFloat, shortest, Binary64.fraction, nearestBits, ofParts, nearest]
  · have some : (Binary64.fraction mantissa exponent).1 ≠ 0 := by simp [Binary64.fraction, zero]
    rw [toFloat, nearestBits_shortest zero]
    simp [ofParts, nearest, some]

theorem toFloat_of_nearestBits_eq {d d' : Decimal} (same : d.nearestBits = d'.nearestBits) : d.toFloat = d'.toFloat := by
  rw [toFloat, toFloat, same]

end Decimal

namespace Layout

open Word

/-- A magnitude behind its sign. -/
def signed (negative : Bool) (magnitude : List Char) : List Char := if negative then '-' :: magnitude else magnitude

/-- A text that spells a number: a sign, and a decimal that reads back as the number. -/
structure Spells (x : Float) (negative : Bool) (d : Decimal) (text : List Char) : Prop where
  text : ∃ magnitude, text = signed negative magnitude ∧ DecimalText magnitude d
  reads : (if negative then -d.toFloat else d.toFloat) = x

theorem Spells.isNegative {x : Float} {negative : Bool} {d : Decimal} {text : List Char} (h : Spells x negative d text) :
    isNegative x = negative := by
  have unsigned := isUnsigned_toFloat d
  simp only [isUnsigned, Bool.and_eq_true, Bool.not_eq_true'] at unsigned
  obtain ⟨number, sign⟩ := unsigned
  rw [← h.reads]
  cases negative with
  | false => exact sign
  | true =>
    show Binary64.isNegative (-d.toFloat) = true
    rw [isNegative_neg number, sign]
    rfl

/-- The literal of a number spells it. -/
theorem spells_literal {x : Float} (finite : x.isFinite = true) :
    ∃ negative d, Spells x negative d (literal.chars x) := by
  obtain ⟨negative, mantissa, exponent, h⟩ := isFinite_iff.1 finite
  obtain ⟨d, text, same⟩ := floatText_magnitude (Decimal.shortest mantissa exponent)
  have magnitude : parts d.toFloat = .finite false mantissa exponent := by
    rw [Decimal.toFloat_of_nearestBits_eq same, Decimal.toFloat_shortest]
    exact parts_ofParts (isCanonical_of_parts h)
  refine ⟨negative, d, ⟨_, ?_, text.decimalText⟩, eq_of_parts ?_⟩
  · rw [chars, h]
    rfl
  · rw [h]
    cases negative with
    | false => exact magnitude
    | true =>
      show parts (-d.toFloat) = _
      rw [parts_neg, magnitude]
      rfl

/-! ## Signs -/

theorem trimmed_minus (text : List Char) : trimmed ('-' :: text) = '-' :: trimmed text := by
  have member : '.' ∈ '-' :: text ↔ '.' ∈ text := by simp
  rw [trimmed, trimmed]
  by_cases point : '.' ∈ text
  · have stop (p : Char → Bool) (minus : p '-' = false) (cs : List Char) :
        (cs ++ ['-']).dropWhile p = cs.dropWhile p ++ ['-'] := by
      rw [List.dropWhile_append]
      split
      · rename_i all
        simp [List.isEmpty_iff.1 all, minus]
      · rfl
    rw [if_pos (member.2 point), if_pos point, List.reverse_cons, stop _ rfl, stop _ rfl]
    simp
  · rw [if_neg (mt member.1 point), if_neg point]

theorem head_of_decimalText {magnitude : List Char} {d : Decimal} (is : DecimalText magnitude d) :
    ∃ c cs, magnitude = c :: cs ∧ c.isDigit = true := by
  obtain ⟨some, ascii, -, -⟩ := is
  rename_i whole fraction exponent
  obtain ⟨c, cs, rfl⟩ := List.exists_cons_of_ne_nil some
  exact ⟨c, _, rfl, ascii c List.mem_cons_self⟩

theorem head_of_writtenOut {text : List Char} (is : WrittenOut text) : ∃ c cs, text = c :: cs ∧ c.isDigit = true := by
  cases is with
  | whole some ascii =>
    obtain ⟨c, cs, rfl⟩ := List.exists_cons_of_ne_nil some
    exact ⟨c, _, rfl, ascii c List.mem_cons_self⟩
  | point before after ascii last =>
    obtain ⟨c, cs, rfl⟩ := List.exists_cons_of_ne_nil before
    exact ⟨c, _, rfl, ascii c List.mem_cons_self⟩

theorem signed_inj {negative negative' : Bool} {first second : List Char} (is : WrittenOut first)
    (is' : WrittenOut second) (same : signed negative first = signed negative' second) :
    negative = negative' ∧ first = second := by
  obtain ⟨c, cs, rfl, digit⟩ := head_of_writtenOut is
  obtain ⟨c', cs', rfl, digit'⟩ := head_of_writtenOut is'
  have minus : ('-' : Char).isDigit = false := by decide
  cases negative <;> cases negative' <;> simp only [signed, if_true, if_false, Bool.false_eq_true, List.cons.injEq] at same
  · exact ⟨rfl, by rw [same.1, same.2]⟩
  · rw [same.1, minus] at digit
    cases digit
  · rw [← same.1, minus] at digit'
    cases digit'
  · exact ⟨rfl, by rw [same.2.1, same.2.2]⟩

/-! ## What is displayed -/

theorem writtenOut_signed {magnitude : List Char} {d : Decimal} (is : DecimalText magnitude d) (negative : Bool) :
    trimmed (writtenOut (signed negative magnitude)) = signed negative (trimmed (plain.magnitude (rescaled d))) := by
  cases negative with
  | false =>
    obtain ⟨c, cs, rfl, digit⟩ := head_of_decimalText is
    have minus : c ≠ '-' := by
      rintro rfl
      cases digit
    show trimmed (writtenOut (c :: cs)) = trimmed _
    rw [writtenOut.eq_2 _ (by simp [minus]), ofText_eq is]
  | true =>
    show trimmed (writtenOut ('-' :: magnitude)) = '-' :: _
    rw [writtenOut, ofText_eq is, trimmed_minus]

/-- A number is displayed with the sign and the exact value of any text that spells it. -/
theorem displayed_of_spells {x : Float} {negative : Bool} {d : Decimal} {text : List Char}
    (h : Spells x negative d text) :
    ∃ magnitude, trimmed (writtenOut text) = signed negative magnitude ∧ WrittenOut magnitude
      ∧ (Decimal.ofText magnitude).value = d.value := by
  obtain ⟨⟨magnitude, rfl, is⟩, -⟩ := h
  obtain ⟨written, value⟩ := writtenOut_magnitude (rescaled d)
  exact ⟨_, writtenOut_signed is negative, written, value.trans (value_rescaled d)⟩

/-- A number is known from what is displayed of it. -/
theorem eq_of_displayed {x y : Float} {negative negative' : Bool} {d d' : Decimal} {text text' : List Char}
    (first : Spells x negative d text) (second : Spells y negative' d' text')
    (same : trimmed (writtenOut text) = trimmed (writtenOut text')) : x = y := by
  obtain ⟨magnitude, shown, written, value⟩ := displayed_of_spells first
  obtain ⟨magnitude', shown', written', value'⟩ := displayed_of_spells second
  rw [shown, shown'] at same
  obtain ⟨rfl, rfl⟩ := signed_inj written written' same
  have number : d.toFloat = d'.toFloat :=
    Decimal.toFloat_of_nearestBits_eq (Decimal.nearestBits_of_value_eq (value.symm.trans value'))
  rw [← first.reads, ← second.reads, number]

/-- The names of the numbers that are not finite. -/
def names : List (List Char) := [['N', 'a', 'N'], ['i', 'n', 'f'], ['-', 'i', 'n', 'f']]

theorem displayed_ne_name {x : Float} {negative : Bool} {d : Decimal} {text : List Char} (h : Spells x negative d text) :
    trimmed (writtenOut text) ∉ names := by
  obtain ⟨magnitude, shown, written, -⟩ := displayed_of_spells h
  obtain ⟨c, cs, rfl, digit⟩ := head_of_writtenOut written
  rw [shown]
  cases negative with
  | false =>
    simp only [signed, names, Bool.false_eq_true, if_false, List.mem_cons, List.cons.injEq, List.not_mem_nil, or_false]
    rintro (⟨rfl, -⟩ | ⟨rfl, -⟩ | ⟨rfl, -⟩) <;> cases digit
  | true =>
    simp only [signed, names, if_true, List.mem_cons, List.cons.injEq, List.not_mem_nil, or_false]
    rintro (⟨h, -⟩ | ⟨h, -⟩ | ⟨-, rfl, -⟩)
    · cases h
    · cases h
    · cases digit

theorem displayed_of_isFinite {x : Float} (finite : x.isFinite = true) :
    displayed x = trimmed (writtenOut (literal.chars x)) := by
  obtain ⟨negative, mantissa, exponent, h⟩ := isFinite_iff.1 finite
  rw [displayed, h]

theorem displayed_mem_names {x : Float} (infinite : x.isFinite = false) : displayed x ∈ names := by
  rw [displayed]
  cases h : parts x with
  | notANumber =>
    simp only [chars, h]
    decide
  | infinite negative =>
    simp only [chars, h]
    cases negative <;> decide
  | finite negative mantissa exponent =>
    rw [isFinite_iff.2 ⟨_, _, _, h⟩] at infinite
    cases infinite

/-- Finite numbers are told from all others by what is displayed of them. -/
theorem eq_of_displayed_eq {x y : Float} (finite : x.isFinite = true) (same : displayed x = displayed y) : x = y := by
  obtain ⟨negative, d, spells⟩ := spells_literal finite
  have shown := displayed_of_isFinite finite
  cases finite' : y.isFinite with
  | true =>
    obtain ⟨negative', d', spells'⟩ := spells_literal finite'
    rw [shown, displayed_of_isFinite finite'] at same
    exact eq_of_displayed spells spells' same
  | false =>
    have name := displayed_mem_names finite'
    rw [← same, shown] at name
    exact absurd name (displayed_ne_name spells)

/-- Whatever text spells a number, it is displayed with its sign, that of a zero too, and with the exact value of the text,
without an exponent: as digits, which are all those of a whole number, or as digits on both sides of a point, of which the
last one is no zero. Numbers that are displayed alike are the same, and none is displayed as a name. A finite number is
rendered so from its literal, which spells it, and is the only value of its kind that is rendered in this way. -/
theorem displayed_exact :
    (∀ (x : Float) (negative : Bool) (d : Decimal) (text : List Char), Spells x negative d text →
      isNegative x = negative
        ∧ (∃ magnitude, trimmed (writtenOut text) = signed negative magnitude ∧ WrittenOut magnitude
          ∧ (Decimal.ofText magnitude).value = d.value
          ∧ ∀ n : Nat, d.value = n → AsciiDigits magnitude ∧ Nat.ofDigitChars 10 magnitude 0 = n)
        ∧ trimmed (writtenOut text) ∉ names
        ∧ ∀ (y : Float) (negative' : Bool) (d' : Decimal) (text' : List Char), Spells y negative' d' text' →
          trimmed (writtenOut text) = trimmed (writtenOut text') → x.toBits = y.toBits)
      ∧ ∀ x : Float, x.isFinite = true →
        (∃ negative d, Spells x negative d (literal.chars x))
          ∧ (Value.float x).render = String.ofList (trimmed (writtenOut (literal.chars x)))
          ∧ ∀ y : Float, (Value.float x).render = (Value.float y).render → x.toBits = y.toBits := by
  refine ⟨fun x negative d text spells => ⟨spells.isNegative, ?_, displayed_ne_name spells,
    fun y negative' d' text' spells' same => congrArg Float.toBits (eq_of_displayed spells spells' same)⟩,
    fun x finite => ⟨spells_literal finite, ?_, fun y same => ?_⟩⟩
  · obtain ⟨magnitude, shown, written, value⟩ := displayed_of_spells spells
    exact ⟨magnitude, shown, written, value, fun n whole => digits_of_whole written (value.trans whole)⟩
  · rw [← displayed_of_isFinite finite]
    rfl
  · exact congrArg Float.toBits (eq_of_displayed_eq finite (String.ofList_injective same))

/-- The sixteenth power of ten keeps its zeros, and the negative zero keeps its sign. -/
theorem displayed_exact_zeros :
    trimmed (writtenOut ['1', 'e', '+', '1', '6']) = '1' :: List.replicate 16 '0'
      ∧ trimmed (writtenOut ['1', 'e', '+', '1', '6']) ∉ names
      ∧ (Value.float (-0.0)).render = "-0" ∧ (Value.float (-0.0)).render ≠ (Value.float 0.0).render := by
  obtain ⟨spelled, rendered⟩ := displayed_exact
  have text : DecimalText (['1'] ++ [] ++ ['e', '+', '1', '6']) (decimal ['1'] [] ['e', '+', '1', '6']) :=
    .mk (by simp) (AsciiDigits.toDigits 1) .none (.signed (.inl rfl) (by simp) (AsciiDigits.toDigits 16))
  have spells : Spells (decimal ['1'] [] ['e', '+', '1', '6']).toFloat false (decimal ['1'] [] ['e', '+', '1', '6'])
      ['1', 'e', '+', '1', '6'] := ⟨⟨_, rfl, text⟩, rfl⟩
  obtain ⟨-, zero, distinct⟩ := rendered (-0.0) (by decide +kernel)
  refine ⟨by decide +kernel, (spelled _ _ _ _ spells).2.2.1, zero.trans (by decide +kernel), fun same => ?_⟩
  exact absurd (distinct 0.0 same) (by decide +kernel)

end Layout

end NamedExpr
