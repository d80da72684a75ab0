import NamedExpr.Proofs.Boundaries
import NamedExpr.Proofs.Nesting
import NamedExpr.Proofs.Operations
import NamedExpr.Proofs.RoundTrip
/-!
# How evaluation fails

An expression fails for reasons of its own (`Evaluation.OwnFault`): of its form (`Expr.FormFault`), of the operations
in it, or of the name that it is; or because something that is evaluated for it fails (`step_meets`). The form of an
expression that was read leaves only field access (`Expr.FormFault.of_isSpelled`). A text that cannot be read goes on
with a word that no expression goes on with, ends too early, or holds a word that is none (`Expr.isUnread_of_read`).
-/

namespace NamedExpr

namespace Expr

/-- The failures that an expression's own form gives rise to, whatever its parts come to. -/
inductive FormFault : Expr → Failure → Prop where
  | unknownLiteral (shown : String) : FormFault (.literal (.unknown shown)) (.unknownLiteral shown)
  | literalOutOfRange {n : Int} (large : fits64 n = false) : FormFault (.literal (.int n)) (.literalOutOfRange n)
  | unknownUnaryOperator {symbol : String} {e : Expr} (unknown : UnaryOperator.ofSymbol? symbol = none) :
      FormFault (.unary symbol e) (.unknownUnaryOperator symbol)
  | unknownOperator {symbol : String} {e : Expr} (member : symbol ∈ e.symbols)
      (unknown : Operator.ofSymbol? symbol = none) : FormFault e (.unknownOperator symbol)
  | fieldAccess {e : Expr} {name : String} : FormFault (.field e name) (.fieldAccess name)
  | notEvaluable {shown : String} : FormFault (.foreign shown) (.notEvaluable shown)

end Expr

namespace Evaluation

section

variable {fails : Failure → Prop} {scope : Scope} {go : Expr → Outcome}

/-- A well-formed value, or a failure of a certain kind. -/
abbrev Comes (fails : Failure → Prop) (outcome : Outcome) : Prop :=
  Meets fails (fun r => r.value.isWellFormed = true) outcome

theorem literal_meets {value : Literal} (form : ∀ failure, Expr.FormFault (.literal value) failure → fails failure) :
    Comes fails (literal value) := by
  cases value with
  | int n =>
    simp only [literal]
    split
    · rename_i fits
      rw [Value.ofInt_of_fits fits]
      exact fits
    · rename_i large
      exact form _ (.literalOutOfRange (by simpa using large))
  | unknown shown => exact form _ (.unknownLiteral shown)
  | none | bool | float | str => rfl

theorem operators_meets {symbols : List String}
    (form : ∀ symbol ∈ symbols, Operator.ofSymbol? symbol = none → fails (.unknownOperator symbol)) :
    Meets fails (fun ops => ops.length = symbols.length) (operators symbols) := by
  induction symbols with
  | nil => rfl
  | cons symbol symbols ih =>
    obtain ⟨first, others⟩ := List.forall_mem_cons.1 form
    rw [operators, Operator.ofSymbol]
    cases found : Operator.ofSymbol? symbol with
    | none => exact first found
    | some op => exact (ih others).bind fun ops length => congrArg (· + 1) length

theorem values_meets {es : List Expr} (h : ∀ e ∈ es, Comes fails (go e)) :
    Meets fails (fun vs => vs.length = es.length ∧ ∀ v ∈ vs, v.isWellFormed = true) (values go es) := by
  induction es with
  | nil => exact ⟨rfl, by simp⟩
  | cons e es ih =>
    obtain ⟨first, others⟩ := List.forall_mem_cons.1 h
    refine first.bind fun r wellFormed => (ih others).bind fun vs rest => ?_
    exact ⟨congrArg (· + 1) rest.1, List.forall_mem_cons.2 ⟨wellFormed, rest.2⟩⟩

theorem elements_meets (operation : ∀ failure, failure.isOfOperation = true → fails failure) {es : List Expr}
    (h : ∀ e ∈ es, Comes fails (go e)) :
    Meets fails (fun vs => Value.areElements vs = true) (elements go es) := by
  induction es with
  | nil => rfl
  | cons e es ih =>
    obtain ⟨first, others⟩ := List.forall_mem_cons.1 h
    apply first.bind
    intro r wellFormed
    split
    · exact operation _ rfl
    · rename_i content
      apply (ih others).bind
      intro vs elements
      show Value.areElements (r.value :: vs) = true
      rw [Value.areElements, wellFormed, elements]
      simpa using content

/-- An operand is missing only where that is tolerated. -/
theorem operand_meets {tolerated : Bool} {e : Expr} (h : Comes fails (go e)) :
    Meets fails (fun operand : Option Resolved =>
      (∀ r ∈ operand, r.value.isWellFormed = true) ∧ (operand = none → tolerated = true))
      (operand go scope tolerated e) := by
  have found : Meets fails (fun operand : Option Resolved =>
      (∀ r ∈ operand, r.value.isWellFormed = true) ∧ (operand = none → tolerated = true)) ((go e).map some) :=
    h.map fun r wellFormed => ⟨fun s same => Option.some.inj same ▸ wellFormed, fun none => by cases none⟩
  unfold operand
  split
  · rename_i tolerated
    unfold tolerant
    split
    · split
      · exact found
      · exact ⟨by simp, fun _ => tolerated⟩
    · exact found
  · exact found

/-- A sound call comes to a well-formed value, or fails as an argument or an operation does. -/
theorem run_meets (operation : ∀ failure, failure.isOfOperation = true → fails failure)
    {ask : Nat → Except Failure (Option Resolved)}
    (asked : ∀ place, Meets fails (fun argument => ∀ r ∈ argument, r.value.isWellFormed = true) (ask place))
    {d : Dispatch} (sound : d.IsSound) : Comes fails (d.run ask) := by
  induction d with
  | settled outcome => exact sound.mono operation
  | awaits place resume ih => exact (asked place).bind fun argument wellFormed => ih argument (sound argument wellFormed)

theorem methodCall_meets (operation : ∀ failure, failure.isOfOperation = true → fails failure) {receiver : Expr}
    {method : String} {args : List Expr} (h : ∀ e ∈ receiver :: args, Comes fails (go e)) :
    Comes fails (methodCall go scope receiver method args) := by
  obtain ⟨ofReceiver, ofArgs⟩ := List.forall_mem_cons.1 h
  apply (operand_meets ofReceiver).bind
  intro r holds
  refine run_meets operation (fun place => ?_) (Method.dispatch_sound method holds.1 holds.2 args.length)
  split
  · rename_i argument found
    exact (operand_meets (ofArgs _ (List.mem_of_getElem? found))).imp fun _ holds => holds.1
  · exact fun r impossible => nomatch impossible

theorem call_meets (operation : ∀ failure, failure.isOfOperation = true → fails failure) {function : String}
    {args : List Expr} (h : ∀ e ∈ args, Comes fails (go e)) : Comes fails (call go function args) := by
  unfold call
  split
  · split
    · exact (h _ List.mem_cons_self).map fun _ wellFormed => wellFormed
    · exact operation _ rfl
  · exact operation _ rfl

end

theorem plain_meets {fails : Failure → Prop} (operation : ∀ failure, failure.isOfOperation = true → fails failure)
    {x : Except Failure Value} (h : Sound x) : Comes fails (plain x) :=
  (h.outcome false).mono operation

/-- What an evaluation can fail with of its own, whatever comes of all that is evaluated for it. -/
inductive OwnFault (scope : Scope) (resolving : List String) : Expr → Failure → Prop where
  | form {e : Expr} {failure : Failure} (fault : e.FormFault failure) : OwnFault scope resolving e failure
  | operation {e : Expr} {failure : Failure} (fault : failure.isOfOperation = true) :
      OwnFault scope resolving e failure
  | unresolved {segments : List String}
      (unbound : ∀ e, scope.entries.get? (Expr.pathName segments) ≠ some (some e)) :
      OwnFault scope resolving (.path segments) (.unresolvedName (Expr.pathName segments))
  | cycle {segments : List String} {e : Expr} (bound : scope.entries.get? (Expr.pathName segments) = some (some e))
      (met : Expr.pathName segments ∈ resolving) :
      OwnFault scope resolving (.path segments) (.cyclicReference (cycle (Expr.pathName segments) resolving))
  | depth {segments : List String} {e : Expr} (bound : scope.entries.get? (Expr.pathName segments) = some (some e))
      (fresh : Expr.pathName segments ∉ resolving) (deep : scope.maxDepth ≤ resolving.length) :
      OwnFault scope resolving (.path segments) (.depthExceeded scope.maxDepth)

theorem OwnFault.isOperational_or_form {scope : Scope} {resolving : List String} {e : Expr} {failure : Failure}
    (fault : OwnFault scope resolving e failure) : failure.isOperational = true ∨ e.FormFault failure := by
  cases fault with
  | form fault => exact .inr fault
  | operation fault => exact .inl (Failure.isOperational_of_isOfOperation fault)
  | unresolved | cycle | depth => exact .inl rfl

theorem name_meets {fails : Failure → Prop} {scope : Scope} {go : List String → Expr → Outcome}
    {resolving segments : List String}
    (own : ∀ failure, OwnFault scope resolving (.path segments) failure → fails failure)
    (h : ∀ resolving' e', Calls scope resolving (.path segments) resolving' e' → Comes fails (go resolving' e')) :
    Comes fails (name scope go resolving (Expr.pathName segments)) := by
  unfold name
  split
  · rename_i e bound
    split
    · rename_i met
      exact own _ (.cycle bound met)
    · rename_i fresh
      split
      · rename_i deep
        exact own _ (.depth bound fresh deep)
      · exact h _ _ (.name bound fresh (by omega))
  · rename_i unbound
    exact own _ (.unresolved unbound)

/-- If whatever is evaluated for an expression comes to well-formed values, so does the expression, unless it fails
in the same way or with a fault of its own. -/
theorem step_meets {fails : Failure → Prop} {scope : Scope} {go : List String → Expr → Outcome}
    {resolving : List String} {e : Expr} (own : ∀ failure, OwnFault scope resolving e failure → fails failure)
    (h : ∀ resolving' e', Calls scope resolving e resolving' e' → Comes fails (go resolving' e')) :
    Comes fails (step (go resolving) scope (name scope go resolving) e) := by
  have ofParts : ∀ p ∈ e.parts, Comes fails (go resolving p) := fun p member => h _ _ (.part member)
  have form : ∀ failure, e.FormFault failure → fails failure := fun failure fault => own failure (.form fault)
  have operation : ∀ failure, failure.isOfOperation = true → fails failure :=
    fun failure fault => own failure (.operation fault)
  cases e with
  | literal value => exact literal_meets form
  | field e name => exact form _ .fieldAccess
  | foreign shown => exact form _ .notEvaluable
  | path segments => exact name_meets own h
  | paren e | reference e => exact ofParts e List.mem_cons_self
  | unary symbol e =>
    apply (ofParts e List.mem_cons_self).bind
    intro r wellFormed
    rw [UnaryOperator.ofSymbol]
    split
    · exact plain_meets operation (UnaryOperator.apply_sound _ _)
    · rename_i unknown
      exact form _ (.unknownUnaryOperator unknown)
  | binary symbol a b =>
    refine (operators_meets fun s member unknown => form _ (.unknownOperator member unknown)).bind fun ops length => ?_
    refine (values_meets ofParts).bind fun vs operands => plain_meets operation (Chain.fold_sound ?_ operands.2)
    rw [operands.1, length]
    exact Expr.length_operands _
  | methodCall receiver method args => exact methodCall_meets operation ofParts
  | call function args => exact call_meets operation ofParts
  | array es =>
    exact (elements_meets operation ofParts).bind fun vs areElements => areElements
  | range a b inclusive =>
    refine (ofParts a List.mem_cons_self).bind fun r first => (ofParts b (by simp [Expr.parts])).bind fun s last => ?_
    exact plain_meets operation (range_sound first last inclusive)
  | index a b =>
    refine (ofParts a List.mem_cons_self).bind fun r target => (ofParts b (by simp [Expr.parts])).bind fun s _ => ?_
    exact plain_meets operation (index_sound target s.value)

/-- An expression comes to something, however the names refer to one another. -/
theorem outcome_ne_exhausted (scope : Scope) (resolving : List String) (e : Expr) :
    outcome scope resolving e ≠ .error .nestingExhausted := by
  have comes : Comes (· ≠ .nestingExhausted) (outcome scope resolving e) := by
    induction resolving, e using @calls_induction scope with
    | step resolving e ih =>
    rw [outcome_eq_step]
    refine step_meets ?_ ih
    rintro failure own rfl
    obtain operational | fault := own.isOperational_or_form
    · cases operational
    · cases fault
  intro exhausted
  rw [exhausted] at comes
  exact comes rfl

end Evaluation

/-! ## Expressions that were read -/

namespace Expr

/-- The operands of a run that was read can be read, and its operators are known. -/
theorem isSpelled_run {e : Expr} (spelled : e.isSpelled = true) (rest : List Expr) (symbols : List String) :
    (∀ p ∈ operandsBefore e rest, p ∈ rest ∨ p.isSpelled = true)
      ∧ ∀ s ∈ symbolsBefore e symbols, s ∈ symbols ∨ (Operator.ofSymbol? s).isSome = true := by
  fun_induction operandsBefore e rest generalizing symbols with
  | case1 symbol left right rest ihRight ihLeft =>
    simp only [isSpelled, Bool.and_eq_true] at spelled
    obtain ⟨⟨known, leftSpelled⟩, rightSpelled⟩ := spelled
    constructor
    · intro p member
      obtain inside | fine := (ihLeft leftSpelled []).1 p member
      · exact (ihRight rightSpelled []).1 p inside
      · exact .inr fine
    · intro s member
      obtain inside | fine := (ihLeft leftSpelled _).2 s member
      · obtain rfl | later := List.mem_cons.1 inside
        · exact .inr known
        · exact (ihRight rightSpelled _).2 s later
      · exact .inr fine
  | case2 e rest leaf =>
    constructor
    · intro p member
      obtain rfl | later := List.mem_cons.1 member
      · exact .inr spelled
      · exact .inl later
    · intro s member
      cases e <;> first | exact .inl member | exact absurd rfl (leaf _ _ _)

theorem isSpelled_of_mem_parts {e p : Expr} (spelled : e.isSpelled = true) (member : p ∈ e.parts) :
    p.isSpelled = true := by
  cases e with
  | literal | path | field | foreign => cases member
  | unary symbol e =>
    obtain rfl := List.mem_singleton.1 member
    simp only [isSpelled, Bool.and_eq_true] at spelled
    exact spelled.2
  | reference e | paren e =>
    obtain rfl := List.mem_singleton.1 member
    exact spelled
  | binary symbol a b => exact ((isSpelled_run spelled [] []).1 p member).resolve_left (by simp)
  | methodCall e method args =>
    simp only [isSpelled, Bool.and_eq_true] at spelled
    obtain rfl | argument := List.mem_cons.1 member
    · exact spelled.1.1
    · exact isSpelledAll_iff.1 spelled.2 p argument
  | call function args =>
    simp only [isSpelled, Bool.and_eq_true] at spelled
    exact isSpelledAll_iff.1 spelled.2 p member
  | array es => exact isSpelledAll_iff.1 spelled p member
  | index a b | range a b inclusive =>
    simp only [isSpelled, Bool.and_eq_true] at spelled
    obtain rfl | second := List.mem_cons.1 member
    · exact spelled.1
    · rw [List.mem_singleton.1 second]
      exact spelled.2

/-- The form of an expression that was read leaves nothing but field access to fail. -/
theorem FormFault.of_isSpelled {e : Expr} {failure : Failure} (fault : e.FormFault failure)
    (spelled : e.isSpelled = true) : ∃ target name, e = .field target name ∧ failure = .fieldAccess name := by
  cases fault with
  | unknownLiteral => cases spelled
  | literalOutOfRange large =>
    simp only [isSpelled, Literal.isReadable, decide_eq_true_eq] at spelled
    have fits := fits64_iff.2 ⟨by omega, spelled.2⟩
    rw [fits] at large
    cases large
  | unknownUnaryOperator unknown =>
    rw [isSpelled, unknown] at spelled
    cases spelled
  | unknownOperator member unknown =>
    have known := ((isSpelled_run spelled [] []).2 _ member).resolve_left (by simp)
    rw [unknown] at known
    cases known
  | fieldAccess => exact ⟨_, _, rfl, rfl⟩
  | notEvaluable => cases spelled

end Expr

namespace Evaluation

/-- Whether every expression that a name stands for consists of parts that a text can hold. -/
def SpelledScope (scope : Scope) : Prop :=
  ∀ name e, scope.entries.get? name = some (some e) → e.isSpelled = true

theorem Calls.isSpelled {scope : Scope} {resolving resolving' : List String} {e e' : Expr}
    (calls : Calls scope resolving e resolving' e') (inScope : SpelledScope scope) (spelled : e.isSpelled = true) :
    e'.isSpelled = true := by
  cases calls with
  | part member => exact Expr.isSpelled_of_mem_parts spelled member
  | name bound => exact inScope _ _ bound

end Evaluation

/-! ## Reading a text -/

namespace Word

/-- The digits `row` make an integer in front of the text `after`: it neither goes on with them nor makes a float of
them. -/
structure IsInteger (row after : List Char) : Prop extends NumberParts row [] [] after where
  unsuffixed : suffixAmong floatSuffixes after = none

end Word

namespace Failure

/-- The failure to read an integer of a text because it is written with more digits than are read. -/
inductive ExceedsDigits (text : List Char) : Failure → Prop where
  | intro {before row after : List Char} (split : text = before ++ (row ++ after)) (integer : Word.IsInteger row after)
      (many : Text.maxDigits < Word.digitCount row) :
      ExceedsDigits text (.tooManyDigits (Word.digitCount row) before.length)

/-- The failures to read a word of a text. -/
inductive IsLexical (text : List Char) : Failure → Prop where
  | illegalCharacter (c : Char) (position : Nat) : IsLexical text (.illegalCharacter c position)
  | unknownEscape (c : Char) (position : Nat) : IsLexical text (.unknownEscape c position)
  | integerTooLarge (spelling : List Char) (position : Nat) : IsLexical text (.integerTooLarge spelling position)
  | tooManyDigits {count position : Nat} (exceeds : ExceedsDigits text (.tooManyDigits count position)) :
      IsLexical text (.tooManyDigits count position)

theorem ExceedsDigits.kind {text : List Char} {failure : Failure} (exceeds : failure.ExceedsDigits text) :
    failure.kind = .badValue := by
  cases exceeds
  rfl

theorem IsLexical.kind {text : List Char} {failure : Failure} (lexical : failure.IsLexical text) :
    failure.kind = .parse ∨ failure.ExceedsDigits text := by
  cases lexical with
  | illegalCharacter | unknownEscape | integerTooLarge => exact .inl rfl
  | tooManyDigits exceeds => exact .inr exceeds

end Failure

namespace Word

variable {text : List Char} {failure : Failure}

/-- The backslashes in the body of a text each stand before a character. -/
theorem isLexical_of_unescape {position : Nat} {cs body : List Char} (read : textBody cs = some body)
    (fault : unescape position body = .error failure) : failure.IsLexical text := by
  revert fault
  refine textBody_induction (fun rest fault => ?_) (fun c rest body line ih fault => ?_)
    (fun c rest body quote backslash ih fault => ?_) read
  · cases fault
  · rw [unescape] at fault
    split at fault
    · cases fault
      exact .unknownEscape c position
    · exact ih (eq_error_of_map fault)
  · rw [unescape_plain position backslash] at fault
    exact ih (eq_error_of_map fault)

/-- A number is at fault only if it is an integer, with too many digits or too large. -/
theorem isLexical_of_readNumber {before cs : List Char} (h : readNumber before.length cs = .error failure) :
    failure.IsLexical (before ++ cs) := by
  obtain ⟨row, fraction, exponent, after, rfl, parts⟩ := exists_numberParts cs
  rw [parts.readNumber_eq, endNumber] at h
  split at h
  · cases h
  · rename_i unsuffixed
    split at h
    · rename_i whole
      obtain ⟨rfl, rfl⟩ : fraction = [] ∧ exponent = [] := by simpa using whole
      split at h
      · rename_i many
        cases h
        exact .tooManyDigits (.intro rfl ⟨parts, unsuffixed⟩ many)
      · simp only at h
        split at h
        · cases h
        · cases h
          exact .integerTooLarge _ _
    · cases h

theorem isLexical_of_read {before rest : List Char} {c : Char} (h : read before.length c rest = .error failure) :
    failure.IsLexical (before ++ c :: rest) := by
  simp only [read] at h
  split at h
  · exact isLexical_of_readNumber h
  · split at h
    · simp only [readText] at h
      split at h
      · cases h
        exact .illegalCharacter _ _
      · rename_i body found
        exact isLexical_of_unescape found (eq_error_of_map h)
    · split at h
      · cases h
      · split at h
        · cases h
        · cases h
          exact .illegalCharacter c _

end Word

namespace Scan

/-- Scanning on behind the text `before` ends at a word that is at fault. -/
theorem isLexical_of_scanFrom {line position covered : Nat} {cs before : List Char} {failure : Failure}
    (h : (scanFrom line position covered cs).failure? = some failure) (stands : before.length = position) :
    failure.IsLexical (before ++ cs) := by
  have passed (position : Nat) (before rest : List Char) (c : Char) (stands : before.length = position)
      (ih : (before ++ [c]).length = position + 1 → failure.IsLexical ((before ++ [c]) ++ rest)) :
      failure.IsLexical (before ++ c :: rest) := by
    rw [List.append_cons]
    exact ih (by rw [List.length_append, List.length_singleton, stands])
  fun_induction scanFrom line position covered cs generalizing before with
  | case1 => cases h
  | case2 _ _ _ _ _ ih => exact passed _ before _ _ stands (ih h)
  | case3 _ _ _ _ _ ih => exact passed _ before _ _ stands (ih h)
  | case4 _ _ _ _ ih => exact passed _ before _ _ stands (ih h)
  | case5 line position c rest space newline failure' read =>
    cases h
    exact Word.isLexical_of_read (stands ▸ read)
  | case6 _ _ _ _ _ _ _ _ _ ih => exact passed _ before _ _ stands (ih h)

theorem isLexical_of_failure {line : Nat} {text : String} {failure : Failure}
    (h : (scan line text).failure? = some failure) : failure.IsLexical text.toList :=
  isLexical_of_scanFrom h List.length_nil

end Scan

theorem Reading.exists_refused {r : Reading} {tokens : List Token} {failure : Failure}
    (h : r.feedAll tokens = .error failure) : ∃ token ∈ tokens, failure = .unexpectedToken token := by
  induction tokens generalizing r with
  | nil => cases h
  | cons token tokens ih =>
    rw [feedAll] at h
    split at h
    · obtain ⟨later, member, same⟩ := ih h
      exact ⟨later, List.mem_cons_of_mem token member, same⟩
    · cases h
      exact ⟨token, List.mem_cons_self, rfl⟩

namespace Expr

/-- The failures to read a text: a word is refused, the expression is not complete, or a word cannot be read. -/
inductive IsUnread (text : String) : Failure → Prop where
  | unexpectedToken {token : Token} (scanned : token ∈ (Scan.scan 1 text).tokens) :
      IsUnread text (.unexpectedToken token)
  | unexpectedEnd : IsUnread text .unexpectedEnd
  | lexical {failure : Failure} (lexical : failure.IsLexical text.toList) : IsUnread text failure

theorem isUnread_of_read {text : String} {failure : Failure} (h : Expr.read text = .error failure) :
    IsUnread text failure := by
  simp only [Expr.read] at h
  split at h
  · rename_i refused
    cases h
    obtain ⟨token, scanned, rfl⟩ := Reading.exists_refused refused
    exact .unexpectedToken scanned
  · split at h
    · rename_i fault
      cases h
      exact .lexical (Scan.isLexical_of_failure fault)
    · split at h
      · cases h
      · cases h
        exact .unexpectedEnd

/-- A text that cannot be read is reported as such, unless an integer in it has too many digits. -/
theorem kind_of_read {text : String} {failure : Failure} (h : Expr.read text = .error failure) :
    failure.kind = .parse ∨ failure.ExceedsDigits text.toList := by
  cases isUnread_of_read h with
  | unexpectedToken | unexpectedEnd => exact .inl rfl
  | lexical lexical => exact lexical.kind

end Expr

end NamedExpr
