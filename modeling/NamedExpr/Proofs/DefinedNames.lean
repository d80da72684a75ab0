import NamedExpr.Proofs.Inlining
import NamedExpr.Proofs.Statements
/-!
# Names that definitions bind

A definition binds an identifier, and an expression refers to a name; the two are not the same. An identifier that is
a name in expressions (`isName`) stands for what its definition says (`Context.evaluate_name_refines`). Any other, one
with letters beyond ASCII or one of the three literals, is bound all the same, but no text refers to it
(`Context.evaluate_remove`).
-/

namespace NamedExpr

/-! ## A name that can be read -/

/-- A text is read as the name that it is, exactly if it is a name in expressions. -/
theorem Expr.read_name_iff {name : String} : Expr.read name = .ok (.path [name]) ↔ isName name = true := by
  have spelled : isSpelled (.path [name]) = isName name := by simp [isSpelled, isPath]
  have written : (Expr.path [name]).write = name := by simp [write, pathName]
  constructor
  · intro read
    rw [← spelled]
    exact (isReadable_iff.1 (isReadable_of_read read)).1
  · intro isName
    have readable : isReadable (.path [name]) = true := isReadable_iff.2 ⟨spelled.trans isName, rfl⟩
    have read := read_write readable
    rwa [written] at read

namespace Evaluation

/-- A name comes to what its expression does, unless a guard stops it or the budget is too small for both. -/
theorem resolve_path_refines {scope : Scope} {segments : List String} {t : Expr}
    (bound : scope.entries.get? (Expr.pathName segments) = some (some t)) (budget : Nat) (resolving : List String) :
    Refines (fun failure => failure.IsGuard ∨ failure = .nestingExhausted)
      (resolve scope (budget + 1) resolving (.path segments)) (resolve scope (budget + 1) resolving t) := by
  show Refines _ (name scope (resolve scope budget) resolving (Expr.pathName segments)) _
  rw [name_of_bound bound]
  split
  · exact .inr ⟨_, .inl (.inl rfl), rfl⟩
  · split
    · exact .inr ⟨_, .inl (.inr rfl), rfl⟩
    · -- Behind the name the budget is smaller by one, and one more name is in resolution.
      have free : Freer Failure.IsGuard scope (Expr.pathName segments :: resolving) scope resolving :=
        ⟨rfl, by simp, by simp, fun _ => .inr rfl, .inr fun _ => .inl rfl⟩
      exact (resolve_refines free budget t).trans (resolve_refines_succ scope budget resolving t)

end Evaluation

namespace Context

theorem evaluateExpr_refines {c : Context} {e e' : Expr}
    (h : Refines (fun failure => failure.IsGuard ∨ failure = .nestingExhausted)
      (c.scope.evaluateWithin nestingLimit e) (c.scope.evaluateWithin nestingLimit e')) (source source' : String) :
    Refines (fun failure => failure.IsGuard ∨ failure = .nestsTooDeeply source)
      (c.evaluateExpr source e) (c.evaluateExpr source' e') := by
  unfold evaluateExpr
  generalize c.scope.evaluateWithin nestingLimit e = x at h
  generalize c.scope.evaluateWithin nestingLimit e' = y at h
  obtain rfl | ⟨failure, isAside, rfl⟩ := h
  · split
    · exact .inr ⟨_, .inr rfl, rfl⟩
    · exact .refl _
  · split
    · exact .inr ⟨_, .inr rfl, rfl⟩
    · rename_i other
      obtain guard | rfl := isAside
      · exact .inr ⟨failure, .inl guard, rfl⟩
      · exact absurd rfl other

/-- A name that can be read comes to what its text does, unless a guard stops it or it nests too deeply. -/
theorem evaluate_name_refines {c : Context} {name source : String} {e : Expr} (readable : isName name = true)
    (read : Expr.read source = .ok e) (bound : c.entries.get? name = some e) :
    Refines Failure.IsGuard (c.scope.evaluate (.path [name])) (c.scope.evaluate e)
      ∧ Refines (fun failure => failure.IsGuard ∨ failure = .nestsTooDeeply name) (c.evaluate name)
        (c.evaluate source) := by
  have inScope : c.scope.entries.get? (Expr.pathName [name]) = some (some e) := by
    simp [scope, Expr.pathName, bound]
  constructor
  · exact Evaluation.evaluate_refines (Evaluation.path_refines inScope [])
  · simp only [evaluate, Expr.read_name_iff.2 readable, read]
    exact evaluateExpr_refines ((Evaluation.resolve_path_refines inScope _ []).map Resolved.value) name source

end Context

/-! ## A name that cannot be read -/

/-- The names that an expression refers to are made of names. -/
theorem Expr.Refers.isPath {e : Expr} {n : String} (refers : e.Refers n) (spelled : e.isSpelled = true) :
    ∃ segments, isPath segments = true ∧ n = pathName segments := by
  induction refers with
  | path segments => exact ⟨segments, spelled, rfl⟩
  | part member _ ih => exact ih (isSpelled_of_mem_parts spelled member)

theorem Scope.Reaches.isPath {scope : Scope} {e : Expr} {n : String} (reaches : scope.Reaches e n)
    (inScope : Evaluation.SpelledScope scope) (spelled : e.isSpelled = true) :
    ∃ segments, Expr.isPath segments = true ∧ n = Expr.pathName segments := by
  cases reaches with
  | here refers => exact refers.isPath spelled
  | on _ refersTo =>
    obtain ⟨t, bound, refers⟩ := refersTo
    exact refers.isPath (inScope _ t bound)

theorem Text.colon_not_mem {s : String} (identifier : isIdentifier s = true) : ':' ∉ s.toList := by
  unfold isIdentifier at identifier
  cases chars : s.toList with
  | nil => simp
  | cons c cs =>
    simp only [chars, isIdentifierChars, Bool.and_eq_true, List.all_eq_true] at identifier
    rintro (_ | ⟨_, member⟩)
    · exact absurd identifier.1 (by decide +kernel)
    · exact absurd (identifier.2 _ member) (by decide +kernel)

/-- An identifier is one name, if it is made of names. -/
theorem isName_of_isPath {segments : List String} (path : Expr.isPath segments = true)
    (identifier : Text.isIdentifier (Expr.pathName segments) = true) : isName (Expr.pathName segments) = true := by
  simp only [Expr.isPath, Bool.and_eq_true, Bool.not_eq_true', List.isEmpty_eq_false_iff] at path
  obtain ⟨some, names⟩ := path
  obtain ⟨first, rest, rfl⟩ := List.exists_cons_of_ne_nil some
  cases rest with
  | nil => simpa [Expr.pathName] using names
  | cons second rest =>
    have colon : ':' ∈ (Expr.pathName (first :: second :: rest)).toList := by
      simp [Expr.pathName]
    exact absurd colon (Text.colon_not_mem identifier)

namespace Context

/-- If a name cannot be read, what it is bound to makes no difference to any text. -/
theorem evaluate_remove {c : Context} (entered : c.Entered) {name : String} (identifier : Text.isIdentifier name = true)
    (unreadable : isName name = false) (text : String) : (c.remove name).evaluate text = c.evaluate text := by
  cases read : Expr.read text with
  | error failure => simp only [evaluate, read]
  | ok e =>
    have spelled : e.isSpelled = true := (Expr.isReadable_iff.1 (Expr.isReadable_of_read read)).1
    have inScope : Evaluation.SpelledScope c.scope := spelledScope fun name e bound => (entered name e bound).2
    have alike : c.Alike (c.remove name) e := by
      refine alike_of_agree rfl fun n reaches => ?_
      have other : n ≠ name := by
        rintro rfl
        obtain ⟨segments, path, rfl⟩ := reaches.isPath inScope spelled
        rw [isName_of_isPath path identifier] at unreadable
        cases unreadable
      rw [remove, Bindings.get?_erase, if_neg other]
    exact alike.ofText text read

end Context

/-! ## Definitions -/

namespace Definition

/-- Puts in the definition that a text writes. -/
def enter (c : Context) (text : String) : Except Failure Context := (ofText text).bind fun d => d.insertInto c

theorem enter_eq_ok_iff {c c' : Context} {text : String} :
    enter c text = .ok c'
      ↔ ∃ d e, ofText text = .ok d ∧ Expr.read d.source = .ok e
        ∧ c' = { c with entries := c.entries.insert d.name e } := by
  unfold enter
  cases written : ofText text with
  | error failure => simp [Except.bind]
  | ok d => simp [Except.bind, insertInto, Context.insert_eq_ok_iff]

theorem enter_of_runLine {c : Context} {line text : String} {effect : Effect}
    (isDefinition : Statement.ofLine line = .define text) (ran : Statement.runLine c line = .ok effect) :
    enter c text = .ok effect.context := by
  rw [Statement.runLine, isDefinition, Statement.run] at ran
  cases written : ofText text with
  | error failure =>
    rw [written] at ran
    cases ran
  | ok d =>
    rw [written] at ran
    cases inserted : d.insertInto c with
    | error failure =>
      simp only [inserted, bind, Except.bind] at ran
      cases ran
    | ok c' =>
      simp only [inserted, bind, Except.bind] at ran
      cases ran
      simp only [enter, written, Except.bind, inserted]

/-- A definition that is put in changes nothing but what its name is bound to. -/
theorem entered_of_enter {c c' : Context} {text : String} (made : enter c text = .ok c') (entered : c.Entered) :
    c'.Entered := by
  obtain ⟨d, e, written, read, rfl⟩ := enter_eq_ok_iff.1 made
  exact (changes_of_insertInto written (Context.insert_eq_ok_iff.2 ⟨e, read, rfl⟩)).entered entered

theorem foldlM_enter_cons_eq_ok_iff {start c : Context} {text : String} {texts : List String} :
    (text :: texts).foldlM enter start = .ok c
      ↔ ∃ c', enter start text = .ok c' ∧ texts.foldlM enter c' = .ok c := by
  rw [List.foldlM_cons]
  cases enter start text with
  | error failure => simp [bind, Except.bind]
  | ok c' => simp [bind, Except.bind]

/-- Every definition of a row is put in at some time. -/
theorem exists_of_foldlM_enter {before after : List String} {text : String} {start c : Context}
    (made : (before ++ text :: after).foldlM enter start = .ok c) :
    ∃ earlier next, enter earlier text = .ok next ∧ after.foldlM enter next = .ok c := by
  induction before generalizing start with
  | nil =>
    obtain ⟨next, now, later⟩ := foldlM_enter_cons_eq_ok_iff.1 made
    exact ⟨start, next, now, later⟩
  | cons _ before ih =>
    obtain ⟨c', -, rest⟩ := foldlM_enter_cons_eq_ok_iff.1 made
    exact ih rest

/-- What every definition of a row keeps, the row keeps. -/
theorem keeps_of_foldlM_enter (holds : Context → Prop) {texts : List String} {start c : Context}
    (keeps : ∀ text ∈ texts, ∀ c c', enter c text = .ok c' → holds c → holds c')
    (made : texts.foldlM enter start = .ok c) (h : holds start) : holds c := by
  induction texts generalizing start with
  | nil =>
    cases made
    exact h
  | cons text texts ih =>
    obtain ⟨first, later⟩ := List.forall_mem_cons.1 keeps
    obtain ⟨c', next, rest⟩ := foldlM_enter_cons_eq_ok_iff.1 made
    exact ih later rest (first start c' next h)

/-- A name keeps what it is bound to while other names are defined. -/
theorem get?_of_foldlM_enter {texts : List String} {start c : Context} (made : texts.foldlM enter start = .ok c)
    {name : String} (others : ∀ text ∈ texts, ∀ d, ofText text = .ok d → d.name ≠ name) :
    c.entries.get? name = start.entries.get? name := by
  refine keeps_of_foldlM_enter (fun c => c.entries.get? name = start.entries.get? name) ?_ made rfl
  intro text member c c' next same
  obtain ⟨d, e, written, -, rfl⟩ := enter_eq_ok_iff.1 next
  rw [Bindings.get?_insert, if_neg (others text member d written).symm]
  exact same

/-- What a definition comes to in a context. Its name is read as itself exactly if it is one in expressions; then it
stands for the text of the definition. If it is none, it makes no difference to any text. -/
structure Means (d : Definition) (c : Context) : Prop where
  readable : Expr.read d.name = .ok (.path [d.name]) ↔ isName d.name = true
  value : isName d.name = true →
    ∃ e, Expr.read d.source = .ok e
      ∧ Refines Failure.IsGuard (c.scope.evaluate (.path [d.name])) (c.scope.evaluate e)
      ∧ Refines (fun failure => failure.IsGuard ∨ failure = .nestsTooDeeply d.name) (c.evaluate d.name)
        (c.evaluate d.source)
  idle : isName d.name = false → c.Entered → ∀ text, (c.remove d.name).evaluate text = c.evaluate text

theorem Means.of_bound {d : Definition} {c : Context} {text : String} {e : Expr} (written : ofText text = .ok d)
    (read : Expr.read d.source = .ok e) (bound : c.entries.get? d.name = some e) : d.Means c where
  readable := Expr.read_name_iff
  value := fun readable => ⟨e, read, Context.evaluate_name_refines readable read bound⟩
  idle := fun unreadable entered => by
    obtain ⟨-, -, -, identifier, -⟩ := ofText_eq_ok_iff.1 written
    exact Context.evaluate_remove entered identifier unreadable

/-- A definition that is accepted, in a line or on the command line, gives its name the meaning of its text if the name
is one in expressions, and no meaning otherwise. -/
theorem means_of_accepted (text : String) :
    (∀ (c : Context) (line : String) (effect : Effect), Statement.ofLine line = .define text →
        Statement.runLine c line = .ok effect → ∃ d, ofText text = .ok d ∧ d.Means effect.context)
      ∧ ∀ (maxDepth : Int) (before after : List String) (c : Context),
        Program.contextOf maxDepth (before ++ text :: after) = .ok c →
        c.Entered ∧ ∃ d, ofText text = .ok d
          ∧ ((∀ text' ∈ after, ∀ d', ofText text' = .ok d' → d'.name ≠ d.name) → d.Means c) := by
  constructor
  · intro c line effect isDefinition ran
    have made := enter_of_runLine isDefinition ran
    obtain ⟨d, e, written, read, new⟩ := enter_eq_ok_iff.1 made
    refine ⟨d, written, .of_bound written read ?_⟩
    rw [new, Bindings.get?_insert, if_pos rfl]
  · intro maxDepth before after c made
    have entered : c.Entered :=
      keeps_of_foldlM_enter Context.Entered (fun _ _ _ _ next => entered_of_enter next) made
        (Context.entered_empty maxDepth)
    obtain ⟨earlier, next, now, later⟩ := exists_of_foldlM_enter made
    obtain ⟨d, e, written, read, new⟩ := enter_eq_ok_iff.1 now
    refine ⟨entered, d, written, fun others => .of_bound written read ?_⟩
    rw [get?_of_foldlM_enter later others, new, Bindings.get?_insert, if_pos rfl]

/-- A name that stands for its text, and one that makes no difference. -/
theorem means_of_accepted_sum :
    ∃ effect c, Statement.runLine (.empty 64) "let x = 20 + 1" = .ok effect
      ∧ (⟨"x", "20 + 1"⟩ : Definition).Means effect.context ∧ effect.context.evaluate "x" = .ok (.int 21)
      ∧ Program.contextOf 64 (["x=1"] ++ "true = x" :: ["y=x"]) = .ok c
      ∧ (c.remove "true").evaluate "y + 1" = .ok (.int 2) := by
  obtain ⟨effect, ran⟩ : ∃ effect, Statement.runLine (.empty 64) "let x = 20 + 1" = .ok effect := ⟨_, rfl⟩
  obtain ⟨c, made⟩ : ∃ c, Program.contextOf 64 (["x=1"] ++ "true = x" :: ["y=x"]) = .ok c := ⟨_, rfl⟩
  obtain ⟨d, written, means⟩ := (means_of_accepted "x = 20 + 1").1 _ _ effect rfl ran
  obtain ⟨entered, d', written', means'⟩ := (means_of_accepted "true = x").2 64 ["x=1"] ["y=x"] c made
  obtain rfl : ⟨"x", "20 + 1"⟩ = d := by injection written
  obtain rfl : ⟨"true", "x"⟩ = d' := by injection written'
  have others : ∀ text ∈ ["y=x"], ∀ d, ofText text = .ok d → d.name ≠ "true" := by
    intro text member d written
    obtain rfl := List.mem_singleton.1 member
    cases written
    decide
  refine ⟨effect, c, ran, means, ?_, made, ?_⟩
  · cases ran
    rfl
  · rw [(means' others).idle rfl entered "y + 1"]
    cases made
    rfl

/-- The literals are identifiers, and so are words with other letters than those of expressions. Definitions bind them,
but no text refers to them. -/
theorem means_of_accepted_literal :
    (∃ effect, Statement.runLine (.empty 64) "let true = 1" = .ok effect
        ∧ effect.context.evaluate "true" = .ok (.bool true) ∧ effect.context.evaluate "1" = .ok (.int 1))
      ∧ Expr.read "true" = .ok (.literal (.bool true))
      ∧ (∃ effect, Statement.runLine (.empty 64) "let é = 1" = .ok effect
        ∧ effect.context.evaluate "é" = .error (.illegalCharacter 'é' 0))
      ∧ Expr.read "é" = .error (.illegalCharacter 'é' 0) :=
  ⟨⟨_, rfl, rfl, rfl⟩, rfl, ⟨_, rfl, rfl⟩, rfl⟩

end Definition

end NamedExpr
