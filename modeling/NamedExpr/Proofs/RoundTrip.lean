import NamedExpr.Proofs.Grouping
/-!
# What is read, and reading back

Every expression that a text is read as consists of parts that a text can hold and is grouped by tightness
(`isReadable_of_read`), so it is read from the text that is written for it. The invariant of reading
(`Reading.Valid`) says that of everything a reading holds, and that each waiting operator can take as its operand
what the operators inside of it will make (`Waits`).
-/

namespace NamedExpr

namespace Expr

theorem isReadable_iff {e : Expr} : e.isReadable = true ↔ e.isSpelled = true ∧ e.isGrouped = true := by
  rw [isReadable, Bool.and_eq_true]

theorem isSpelledAll_iff {es : List Expr} : isSpelledAll es = true ↔ ∀ e ∈ es, e.isSpelled = true := by
  induction es with
  | nil => simp [isSpelledAll]
  | cons e es ih => simp [isSpelledAll, ih]

theorem isGroupedAll_iff {es : List Expr} : isGroupedAll es = true ↔ ∀ e ∈ es, e.isGrouped = true := by
  induction es with
  | nil => simp [isGroupedAll]
  | cons e es ih => simp [isGroupedAll, ih]

/-- Whether an expression can be read as an operand that only a suffix can extend. -/
def IsOperand (e : Expr) : Prop := e.isReadable = true ∧ 7 ≤ e.tightness

end Expr

/-! ## The operators that wait -/

namespace Pending

/-- How tight the right operand of a pending operator must be. -/
def need : Pending → Nat
  | .unary _ | .reference => 6
  | .binary op _ => op.readingLevel + 1
  | .range .. => 1

/-- Whether what a pending operator has taken is in order. -/
def Valid : Pending → Prop
  | .unary _ | .reference => True
  | .binary op left => left.isReadable = true ∧ op.readingLevel ≤ left.tightness
  | .range start _ => start.isReadable = true ∧ 0 < start.tightness

theorem need_le (p : Pending) : p.need ≤ 6 := by
  cases p with
  | binary op left => exact Nat.succ_le_succ op.readingLevel_bounds.2
  | _ => simp [need]

/-- A binary operator, or a range, takes every operand that is tighter than itself. -/
theorem need_le_of_lt {p : Pending} {level : Nat} (lt : p.level < level) (low : level ≤ 6) : p.need ≤ level := by
  cases p with
  | unary | reference =>
    simp only [Pending.level] at lt
    omega
  | binary | range => exact lt

theorem isReadable_complete {p : Pending} {e : Expr} (valid : p.Valid) (readable : e.isReadable = true)
    (tight : p.need ≤ e.tightness) : (p.complete e).isReadable = true := by
  rw [Expr.isReadable_iff] at readable ⊢
  cases p with
  | unary op => simp_all [complete, Expr.isSpelled, Expr.isGrouped, need]
  | reference => simp_all [complete, Expr.isSpelled, Expr.isGrouped, need]
  | binary op left =>
    obtain ⟨left_readable, left_tight⟩ := valid
    rw [Expr.isReadable_iff] at left_readable
    have level : (Expr.binary op.symbol left e).tightness = op.readingLevel := tightness_complete (.binary op left) e
    have right_tight : op.readingLevel < e.tightness := tight
    simp [complete, Expr.isSpelled, Expr.isGrouped, level, readable, left_readable, left_tight, right_tight]
  | range start inclusive =>
    obtain ⟨start_readable, start_tight⟩ := valid
    rw [Expr.isReadable_iff] at start_readable
    have stop_tight : 0 < e.tightness := tight
    simp [complete, Expr.isSpelled, Expr.isGrouped, readable, start_readable, start_tight, stop_tight]

end Pending

/-- Operators that wait, innermost first, for an operand as tight as `tightness`: the innermost can take it, and
each other one can take what the one inside of it makes. -/
inductive Waits : Nat → List Pending → Prop where
  | nil {tightness : Nat} : Waits tightness []
  | cons {tightness : Nat} {p : Pending} {rest : List Pending} (valid : p.Valid) (takes : p.need ≤ tightness)
      (outside : Waits p.level rest) : Waits tightness (p :: rest)

namespace Waits

/-- Every operator takes what a suffix or a prefix operator makes. -/
theorem of_tight {tightness other : Nat} {pending : List Pending} (waits : Waits tightness pending)
    (tight : 6 ≤ other) : Waits other pending := by
  cases waits with
  | nil => exact .nil
  | cons valid _ outside => exact .cons valid (Nat.le_trans (Pending.need_le _) tight) outside

/-- An operator that binds tighter than the innermost may wait inside of it. -/
theorem of_loose {tightness level : Nat} {pending : List Pending} (waits : Waits tightness pending)
    (loose : ∀ p ∈ pending.head?, p.level < level) (low : level ≤ 6) : Waits level pending := by
  cases waits with
  | nil => exact .nil
  | cons valid _ outside => exact .cons valid (Pending.need_le_of_lt (loose _ rfl) low) outside

/-- Settling keeps everything in order: it makes an expression that can be read, no looser than what is settled,
and the operators that go on waiting are looser than that. -/
theorem settle {least : Nat} {pending : List Pending} {e : Expr} (waits : Waits e.tightness pending)
    (readable : e.isReadable = true) (tight : least ≤ e.tightness) :
    (Pending.settle least pending e).1.isReadable = true ∧ least ≤ (Pending.settle least pending e).1.tightness
      ∧ Waits (Pending.settle least pending e).1.tightness (Pending.settle least pending e).2
      ∧ ∀ p ∈ (Pending.settle least pending e).2.head?, p.level < least := by
  fun_induction Pending.settle least pending e with
  | case1 e => exact ⟨readable, tight, .nil, by simp⟩
  | case2 p rest e binds ih =>
    cases waits with
    | cons valid takes outside =>
      have level := Pending.tightness_complete p e
      exact ih (by rwa [level]) (Pending.isReadable_complete valid readable takes) (by rwa [level])
  | case3 p rest e loose =>
    refine ⟨readable, tight, waits, fun q hq => ?_⟩
    obtain rfl := Option.some.inj hq
    exact Nat.lt_of_not_le loose

end Waits

/-! ## The invariant of reading -/

/-- Whether what a list of arguments belongs to is in order. -/
def Owner.Valid : Owner → Prop
  | .method receiver name => receiver.IsOperand ∧ isName name = true
  | .function segments => Expr.isPath segments = true
  | .array => True

/-- Whether what stands before and in an open bracket is in order. -/
def Opened.Valid : Opened → Prop
  | .paren => True
  | .index target => target.IsOperand
  | .arguments owner done => owner.Valid ∧ ∀ e ∈ done, e.isReadable = true

/-- Whether an open bracket and the operators outside of it are in order. A bracket makes an operand. -/
def Layer.Valid (layer : Layer) : Prop := layer.opened.Valid ∧ Waits 7 layer.pending

/-- Whether the operand at the end of a reading is in order. -/
def Head.Valid : Head → Prop
  | .missing => True
  | .path segments | .pathOpen segments => Expr.isPath segments = true
  | .operand e | .dotted e => e.IsOperand
  | .member e name => e.IsOperand ∧ isName name = true

/-- Whether everything that a reading holds is in order. -/
structure Reading.Valid (r : Reading) : Prop where
  outer : ∀ layer ∈ r.outer, layer.Valid
  pending : Waits 7 r.pending
  head : r.head.Valid

theorem Owner.Valid.complete {owner : Owner} (valid : owner.Valid) {args : List Expr}
    (readable : ∀ e ∈ args, e.isReadable = true) : (owner.complete args).IsOperand := by
  have spelled : Expr.isSpelledAll args = true :=
    Expr.isSpelledAll_iff.2 fun e he => (Expr.isReadable_iff.1 (readable e he)).1
  have grouped : Expr.isGroupedAll args = true :=
    Expr.isGroupedAll_iff.2 fun e he => (Expr.isReadable_iff.1 (readable e he)).2
  refine ⟨Expr.isReadable_iff.2 ?_, ?_⟩
  · cases owner with
    | method receiver name =>
      obtain ⟨⟨receiver_readable, tight⟩, isName⟩ := valid
      rw [Expr.isReadable_iff] at receiver_readable
      simp [Owner.complete, Expr.isSpelled, Expr.isGrouped, receiver_readable, tight, isName, spelled, grouped]
    | function segments =>
      simp [Owner.complete, Expr.isSpelled, Expr.isGrouped, show Expr.isPath segments = true from valid, spelled,
        grouped]
    | array => simp [Owner.complete, Expr.isSpelled, Expr.isGrouped, spelled, grouped]
  · cases owner <;> simp [Owner.complete, Expr.tightness]

theorem Opened.Valid.complete {opened : Opened} (valid : opened.Valid) {e : Expr} (readable : e.isReadable = true) :
    (opened.complete e).IsOperand := by
  cases opened with
  | paren =>
    refine ⟨?_, by simp [Opened.complete, Expr.tightness]⟩
    rw [Expr.isReadable_iff] at readable ⊢
    simpa [Opened.complete, Expr.isSpelled, Expr.isGrouped] using readable
  | index target =>
    obtain ⟨target_readable, tight⟩ := valid
    refine ⟨?_, by simp [Opened.complete, Expr.tightness]⟩
    rw [Expr.isReadable_iff] at readable target_readable ⊢
    simp [Opened.complete, Expr.isSpelled, Expr.isGrouped, readable, target_readable, tight]
  | arguments owner done =>
    apply valid.1.complete
    intro x hx
    obtain last | earlier := List.mem_cons.1 (List.mem_reverse.1 hx)
    · rwa [last]
    · exact valid.2 x earlier

/-- An operand that may end is in order. -/
theorem Head.Valid.of_toExpr? {head : Head} (valid : head.Valid) {e : Expr} (operand : head.toExpr? = some e) :
    e.IsOperand := by
  cases head with
  | path segments =>
    obtain rfl := Option.some.inj operand
    refine ⟨?_, by simp [Expr.tightness]⟩
    rw [Expr.isReadable_iff]
    exact ⟨valid, rfl⟩
  | operand x =>
    obtain rfl := Option.some.inj operand
    exact valid
  | member x name =>
    obtain rfl := Option.some.inj operand
    obtain ⟨⟨readable, tight⟩, isName⟩ := valid
    refine ⟨?_, by simp [Expr.tightness]⟩
    rw [Expr.isReadable_iff] at readable ⊢
    simp [Expr.isSpelled, Expr.isGrouped, readable, tight, isName]
  | missing | pathOpen | dotted => cases operand

namespace Reading

variable {r next : Reading} {e : Expr}

theorem valid_start : start.Valid := ⟨by simp [start], .nil, trivial⟩

theorem Valid.openBracket (valid : r.Valid) {opened : Opened} (inOrder : opened.Valid) :
    (r.openBracket opened).Valid :=
  ⟨List.forall_mem_cons.2 ⟨⟨inOrder, valid.pending⟩, valid.outer⟩, .nil, trivial⟩

theorem Valid.literal (valid : r.Valid) {value : Literal} (readable : value.isReadable = true) :
    (r.literal value).Valid := by
  refine ⟨valid.outer, valid.pending, ?_, ?_⟩
  · rw [Expr.isReadable_iff]
    exact ⟨readable, rfl⟩
  · simp [Expr.tightness]

/-- A prefix operator may wait inside of every operator. -/
theorem Valid.await (valid : r.Valid) {p : Pending} (inOrder : p.Valid) (level : p.level = 6) : (r.await p).Valid :=
  ⟨valid.outer, .cons inOrder (Nat.le_succ_of_le p.need_le) (valid.pending.of_tight (Nat.le_of_eq level.symm)), trivial⟩

theorem Valid.closeArguments (valid : r.Valid) {b : Bracket} (closed : r.closeArguments b = some next) :
    next.Valid := by
  unfold Reading.closeArguments at closed
  split at closed
  · rename_i waiting owner done outer _ layers
    split_ifs at closed
    cases closed
    obtain ⟨layer, others⟩ := List.forall_mem_cons.1 (layers ▸ valid.outer)
    refine ⟨others, layer.2, layer.1.1.complete fun x hx => layer.1.2 x (List.mem_reverse.1 hx)⟩
  · cases closed

theorem Valid.feedMissing (valid : r.Valid) {lexeme : Lexeme} (readable : lexeme.isReadable = true)
    (fed : r.feedMissing lexeme = some next) : next.Valid := by
  unfold Reading.feedMissing at fed
  split at fed
  all_goals first | cases fed | skip
  · refine valid.literal ?_
    simpa [Lexeme.isReadable, Literal.isReadable] using readable
  · exact valid.literal readable
  · exact valid.literal rfl
  · exact valid.literal rfl
  · exact valid.literal rfl
  · refine ⟨valid.outer, valid.pending, ?_⟩
    simpa [Head.Valid, Expr.isPath, Lexeme.isReadable] using readable
  · exact valid.await trivial rfl
  · exact valid.await trivial rfl
  · exact valid.await trivial rfl
  · exact valid.openBracket trivial
  · exact valid.openBracket ⟨trivial, by simp⟩
  · exact valid.closeArguments fed

/-- Settling what waits for an operand. -/
theorem Valid.settle (valid : r.Valid) (operand : e.IsOperand) (least : Nat) (low : least ≤ 7) :
    (Pending.settle least r.pending e).1.isReadable = true
      ∧ least ≤ (Pending.settle least r.pending e).1.tightness
      ∧ Waits (Pending.settle least r.pending e).1.tightness (Pending.settle least r.pending e).2
      ∧ ∀ p ∈ (Pending.settle least r.pending e).2.head?, p.level < least :=
  (valid.pending.of_tight (Nat.le_of_succ_le operand.2)).settle operand.1 (Nat.le_trans low operand.2)

/-- A bracket closes after an expression, or an argument ends. -/
theorem Valid.closeAfter (valid : r.Valid) (operand : e.IsOperand) {b : Bracket}
    (closed : r.closeAfter b e = some next) : next.Valid := by
  unfold Reading.closeAfter at closed
  split at closed
  · rename_i waiting opened outer layers
    split_ifs at closed
    cases closed
    obtain ⟨layer, others⟩ := List.forall_mem_cons.1 (layers ▸ valid.outer)
    exact ⟨others, layer.2, layer.1.complete (valid.settle operand 0 (Nat.zero_le _)).1⟩
  · cases closed

theorem Valid.nextArgument (valid : r.Valid) (operand : e.IsOperand) (went : r.nextArgument e = some next) :
    next.Valid := by
  unfold Reading.nextArgument at went
  split at went
  · rename_i waiting owner done outer layers
    cases went
    obtain ⟨layer, others⟩ := List.forall_mem_cons.1 (layers ▸ valid.outer)
    have argument := (valid.settle operand 0 (Nat.zero_le _)).1
    exact ⟨List.forall_mem_cons.2 ⟨⟨⟨layer.1.1, List.forall_mem_cons.2 ⟨argument, layer.1.2⟩⟩, layer.2⟩, others⟩,
      .nil, trivial⟩
  · cases went

theorem Valid.feedAfter (valid : r.Valid) (operand : e.IsOperand) {lexeme : Lexeme}
    (fed : r.feedAfter e lexeme = some next) : next.Valid := by
  unfold Reading.feedAfter at fed
  split at fed
  · cases fed
    exact ⟨valid.outer, valid.pending, operand⟩
  · cases fed
    exact valid.openBracket operand
  · rename_i op
    have bounds := op.readingLevel_bounds
    obtain ⟨readable, tight, waits, loose⟩ := valid.settle operand op.readingLevel (by omega)
    cases fed
    exact ⟨valid.outer, .cons ⟨readable, tight⟩ (by simp only [Pending.need]; omega)
      (waits.of_loose loose (by simp only [Pending.level]; omega)), trivial⟩
  · rename_i inclusive
    obtain ⟨readable, tight, _, _⟩ := valid.settle operand 1 (by decide)
    split at fed
    · rename_i first settled
      cases fed
      rw [settled] at readable tight
      exact ⟨valid.outer, .cons ⟨readable, tight⟩ (by simp [Pending.need]) .nil, trivial⟩
    · cases fed
  · exact valid.nextArgument operand fed
  · exact valid.closeAfter operand fed
  · cases fed

/-- Taking a token that a text can hold keeps everything in order. -/
theorem Valid.feed (valid : r.Valid) {lexeme : Lexeme} (readable : lexeme.isReadable = true)
    (fed : r.feed lexeme = some next) : next.Valid := by
  have head := valid.head
  unfold Reading.feed at fed
  split at fed
  · exact valid.feedMissing readable fed
  · rename_i shape
    cases fed
    rw [shape] at head
    exact ⟨valid.outer, valid.pending, head⟩
  · rename_i shape
    cases fed
    rw [shape] at head
    exact valid.openBracket ⟨head, by simp⟩
  · rename_i shape _ _
    exact valid.feedAfter (head.of_toExpr? (by rw [shape]; rfl)) fed
  · rename_i shape
    cases fed
    rw [shape] at head
    refine ⟨valid.outer, valid.pending, ?_⟩
    simp only [Head.Valid, Expr.isPath, Bool.and_eq_true] at head
    simpa [Head.Valid, Expr.isPath, head.2, Lexeme.isReadable] using readable
  · cases fed
  · rename_i shape
    exact valid.feedAfter (head.of_toExpr? (by rw [shape]; rfl)) fed
  · rename_i shape
    cases fed
    rw [shape] at head
    exact ⟨valid.outer, valid.pending, head, readable⟩
  · cases fed
  · rename_i shape
    cases fed
    rw [shape] at head
    exact valid.openBracket ⟨head, by simp⟩
  · rename_i shape _
    exact valid.feedAfter (head.of_toExpr? (by rw [shape]; rfl)) fed

/-- Everything stays in order as long as tokens are taken that a text can hold. -/
theorem Valid.feedAll (valid : r.Valid) {tokens : List Token}
    (readable : ∀ token ∈ tokens, token.lexeme.isReadable = true) (fed : r.feedAll tokens = .ok next) :
    next.Valid := by
  induction tokens generalizing r with
  | nil =>
    cases fed
    exact valid
  | cons token tokens ih =>
    obtain ⟨first, others⟩ := List.forall_mem_cons.1 readable
    rw [Reading.feedAll] at fed
    split at fed
    · rename_i mid step
      exact ih (valid.feed first step) others fed
    · cases fed

theorem Valid.finish (valid : r.Valid) (finished : r.finish = some e) : e.isReadable = true := by
  unfold Reading.finish at finished
  split at finished
  · rename_i operand
    cases finished
    exact (valid.settle (valid.head.of_toExpr? operand) 0 (Nat.zero_le _)).1
  · cases finished

end Reading

namespace Expr

/-- What a text being read as an expression means: it is scanned to its end, and all its lexemes are taken and lead to
the expression. -/
theorem read_eq_ok_iff {text : String} {e : Expr} :
    Expr.read text = .ok e ↔ (Scan.scan 1 text).failure? = none
      ∧ ∃ r, Reading.start.feedLexemes (Scan.scan 1 text).lexemes = some r ∧ r.finish = some e := by
  simp only [Expr.read, Scan.lexemes]
  constructor
  · intro read
    split at read
    · cases read
    · rename_i r fed
      split at read
      · cases read
      · rename_i complete
        split at read
        · rename_i finished
          cases read
          exact ⟨complete, r, Reading.feedAll_eq_ok_iff.1 fed, finished⟩
        · cases read
  · rintro ⟨complete, r, fed, finished⟩
    simp only [Reading.feedAll_eq_ok_iff.2 fed, complete, finished]

/-- A text is only read as an expression that could have been written. -/
theorem isReadable_of_read {text : String} {e : Expr} (read : Expr.read text = .ok e) : e.isReadable = true := by
  obtain ⟨-, r, fed, finished⟩ := read_eq_ok_iff.1 read
  have valid := Reading.valid_start.feedAll (fun _ => Scan.isReadable_of_mem) (Reading.feedAll_eq_ok_iff.2 fed)
  exact valid.finish finished

mutual

/-- Every part of an expression that a text can hold is an expression. -/
theorem firstForeign?_eq_none : (e : Expr) → e.isSpelled = true → e.firstForeign? = none
  | .literal _, _ | .path _, _ => rfl
  | .unary _ e, h => firstForeign?_eq_none e (Bool.and_eq_true _ _ ▸ h).2
  | .reference e, h | .paren e, h => firstForeign?_eq_none e h
  | .binary _ a b, h => by
    simp only [isSpelled, Bool.and_eq_true] at h
    rw [firstForeign?, firstForeign?_eq_none a h.1.2, firstForeign?_eq_none b h.2, Option.or_none]
  | .index a b, h | .range a b _, h => by
    simp only [isSpelled, Bool.and_eq_true] at h
    rw [firstForeign?, firstForeign?_eq_none a h.1, firstForeign?_eq_none b h.2, Option.or_none]
  | .methodCall e _ args, h => by
    simp only [isSpelled, Bool.and_eq_true] at h
    rw [firstForeign?, firstForeignOf?_eq_none args h.2, firstForeign?_eq_none e h.1.1, Option.or_none]
  | .call _ args, h => firstForeignOf?_eq_none args (Bool.and_eq_true _ _ ▸ h).2
  | .field e _, h => firstForeign?_eq_none e (Bool.and_eq_true _ _ ▸ h).1
  | .array elements, h => firstForeignOf?_eq_none elements h

theorem firstForeignOf?_eq_none : (es : List Expr) → isSpelledAll es = true → firstForeignOf? es = none
  | [], _ => rfl
  | e :: es, h => by
    rw [isSpelledAll, Bool.and_eq_true] at h
    rw [firstForeignOf?, firstForeign?_eq_none e h.1, firstForeignOf?_eq_none es h.2, Option.or_none]

end

theorem write?_eq_ok {e : Expr} (readable : e.isReadable = true) : e.write? = .ok e.write := by
  rw [write?, firstForeign?_eq_none e (isReadable_iff.1 readable).1]

/-- Writing and reading are inverse to each other on the expressions that can be read, which are exactly those
that texts are read as. -/
theorem read_write_inverse :
    (∀ e : Expr, e.isReadable = true → e.write? = .ok e.write ∧ Expr.read e.write = .ok e)
      ∧ ∀ (text : String) (e : Expr), Expr.read text = .ok e → e.isReadable = true ∧ Expr.read e.write = .ok e := by
  refine ⟨fun e readable => ⟨write?_eq_ok readable, read_write readable⟩, fun text e read => ?_⟩
  have readable := isReadable_of_read read
  exact ⟨readable, read_write readable⟩

/-- Words that would run into one another: `1` before a point, `&` before `&`, and infinity. -/
theorem read_write_adjacent_words :
    let tight := Expr.range (.methodCall (.literal (.int 1)) "abs" [])
      (.binary "-" (.unary "!" (.reference (.reference (.path ["a", "b"])))) (.literal (.float Binary64.infinity))) true
    (tight.write = "1.abs()..=!& &a::b - 1e400" ∧ tight.isReadable = true ∧ Expr.read tight.write = .ok tight)
      ∧ Expr.read "[ 1..2 , ]" = .ok (.array [.range (.literal (.int 1)) (.literal (.int 2)) false])
      ∧ Expr.read (Expr.array [.range (.literal (.int 1)) (.literal (.int 2)) false]).write
        = .ok (.array [.range (.literal (.int 1)) (.literal (.int 2)) false]) :=
  ⟨⟨by rfl, by decide, (read_write_inverse.1 _ (by decide)).2⟩, by rfl,
    (read_write_inverse.2 "[ 1..2 , ]" _ (by rfl)).2⟩

end Expr

end NamedExpr
