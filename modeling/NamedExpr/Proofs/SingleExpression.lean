import NamedExpr.Proofs.Lines
import NamedExpr.Proofs.Statements
/-!
# One expression on the command line

A value that is attached to the long name of a flag is taken as it stands (`Options.ofArguments_attached`), and
definitions that can be read make a context (`Program.contextOf_accepted`). So a command line with an expression is
answered by its value, and without looking at the input (`Program.run_command`), unless the expression is a text that
counts as none: the empty one, or the mark `--` (`Program.run_command_empty`).
-/

namespace NamedExpr

/-! ## Values attached to flags -/

namespace Argument

/-- A flag by its long name, and a value attached to it. -/
def attached (written : (String × Flag) × String) : String := written.1.1 ++ "=" ++ written.2

variable {named : String × Flag}

theorem ofWord_attached (known : named ∈ Flag.longNames) (value : String) :
    ofWord (attached (named, value)) = .ok (.long named.2 (some value)) := by
  have free : ∀ named ∈ Flag.longNames, '=' ∉ named.1.toList := by decide
  have found : ∀ named ∈ Flag.longNames, Flag.longNames.find? (fun e => e.1.toList = named.1.toList) = some named := by
    decide
  have dashes : ∀ named ∈ Flag.longNames, ['-', '-'] <+: named.1.toList := by decide
  obtain ⟨rest, start⟩ := dashes named known
  have text : (attached (named, value)).toList = named.1.toList ++ '=' :: value.toList := by simp [attached]
  have twoDashes : ofWord (attached (named, value)) = ofTwoDashes (attached (named, value)) := by
    rw [ofWord, text, ← start]
    rfl
  rw [twoDashes, ofTwoDashes, text, Text.cut_append (free named known)]
  simp only [found named known, Option.map_some, String.ofList_toList]

theorem ofWords_attached {words : List ((String × Flag) × String)} (known : ∀ w ∈ words, w.1 ∈ Flag.longNames) :
    ofWords (words.map attached) = .ok (words.map fun w => .long w.1.2 (some w.2)) := by
  induction words with
  | nil => rfl
  | cons w words ih =>
    obtain ⟨first, others⟩ := List.forall_mem_cons.1 known
    have notMark : attached w ≠ "--" := by
      intro same
      have member : '=' ∈ (attached w).toList := by simp [attached]
      rw [same] at member
      exact absurd member (by decide)
    rw [List.map_cons, ofWords, if_neg notMark, ofWord_attached first, ih others]
    rfl

end Argument

namespace Options

theorem takeAll_attached {words : List (Flag × String)} (takeValues : ∀ w ∈ words, w.1.takesValue = true) (o : Options) :
    takeAll o [] false (words.map fun w => .long w.1 (some w.2)) = (words.map fun w => (w.1, some w.2)).foldlM set o := by
  induction words generalizing o with
  | nil => rfl
  | cons w words ih =>
    obtain ⟨first, others⟩ := List.forall_mem_cons.1 takeValues
    simp only [List.map_cons, takeAll, take, takeAttached, first, List.foldlM_cons, Bool.false_eq_true, if_false, if_true,
      List.foldlM_nil, List.reverse_nil, List.nil_append]
    cases set o (w.1, some w.2) with
    | error stop => rfl
    | ok next => exact ih others next

/-- Flags that take a value take the one that is attached to their long name. -/
theorem ofArguments_attached {words : List ((String × Flag) × String)} (known : ∀ w ∈ words, w.1 ∈ Flag.longNames)
    (takeValues : ∀ w ∈ words, w.1.2.takesValue = true) :
    ofArguments (words.map Argument.attached) = (words.map fun w => (w.1.2, some w.2)).foldlM set default := by
  have taken := takeAll_attached (List.forall_mem_map.2 takeValues : ∀ w ∈ words.map fun w => (w.1.2, w.2), _) default
  rw [List.map_map, List.map_map] at taken
  rw [ofArguments, Argument.ofWords_attached known]
  exact taken

/-- Definitions are kept in their order. -/
theorem set_definitions {texts : List String} (notMark : ∀ text ∈ texts, text ≠ "--") (o : Options) :
    (texts.map fun text => (Flag.define, some text)).foldlM set o
      = .ok { o with definitions := o.definitions ++ texts } := by
  induction texts generalizing o with
  | nil => simp [pure, Except.pure]
  | cons text texts ih =>
    obtain ⟨first, others⟩ := List.forall_mem_cons.1 notMark
    have one : set o (.define, some text) = .ok { o with definitions := o.definitions ++ [text] } := by
      simp [set, first]
    rw [List.map_cons, List.foldlM_cons, one]
    exact (ih others _).trans (by simp)

end Options

namespace Program

/-! ## Definitions on the command line -/

/-- Definitions that can be read make a context. -/
theorem contextOf_accepted {texts : List String}
    (accepted : ∀ text ∈ texts, ∃ d e, Definition.ofText text = .ok d ∧ Expr.read d.source = .ok e) (maxDepth : Int) :
    ∃ c, contextOf maxDepth texts = .ok c ∧ c.Entered := by
  have fromAny : ∀ start : Context, start.Entered → ∃ c, texts.foldlM
      (fun c text => (Definition.ofText text).bind fun d => d.insertInto c) start = .ok c ∧ c.Entered := by
    induction texts with
    | nil => exact fun start entered => ⟨start, rfl, entered⟩
    | cons text texts ih =>
      intro start entered
      obtain ⟨⟨d, e, written, read⟩, others⟩ := List.forall_mem_cons.1 accepted
      have inserted : d.insertInto start = .ok { start with entries := start.entries.insert d.name e } :=
        Context.insert_eq_ok_iff.2 ⟨e, read, rfl⟩
      have next := (Definition.changes_of_insertInto written inserted).entered entered
      obtain ⟨c, made, entered⟩ := ih others _ next
      refine ⟨c, ?_, entered⟩
      rw [List.foldlM_cons, written]
      simp only [Except.bind, inserted]
      exact made
  exact fromAny _ (Context.entered_empty maxDepth)

/-! ## An expression on the command line -/

/-- The command line with an expression, and definitions before and after it. -/
def commandLine (before : List String) (source : String) (after : List String) : List String :=
  before.map ("--define=" ++ ·) ++ ("--command=" ++ source) :: after.map ("--define=" ++ ·)

theorem ofArguments_commandLine {before after : List String} {source : String}
    (notMarks : ∀ text ∈ before ++ after, text ≠ "--") (notMark : source ≠ "--") :
    Options.ofArguments (commandLine before source after)
      = .ok { Options.default with definitions := before ++ after, command? := some source } := by
  have words : commandLine before source after
      = (before.map (fun text => (("--define", Flag.define), text))
          ++ (("--command", Flag.command), source) :: after.map (fun text => (("--define", Flag.define), text))).map
        Argument.attached := by
    simp [commandLine, Argument.attached, Function.comp_def]
  obtain ⟨first, last⟩ := List.forall_mem_append.1 notMarks
  rw [words, Options.ofArguments_attached]
  · have command (o : Options) : Options.set o (.command, some source) = .ok { o with command? := some source } := by
      simp [Options.set, notMark]
    simp only [List.map_append, List.map_cons, List.map_map, Function.comp_def, List.foldlM_append, List.foldlM_cons]
    rw [Options.set_definitions first]
    simp only [bind, Except.bind, command]
    rw [Options.set_definitions last]
    rfl
  · simp only [List.forall_mem_append, List.forall_mem_cons, List.forall_mem_map]
    exact ⟨fun _ _ => by decide, by decide, fun _ _ => by decide⟩
  · simp only [List.forall_mem_append, List.forall_mem_cons, List.forall_mem_map]
    exact ⟨fun _ _ => rfl, rfl, fun _ _ => rfl⟩

/-- An expression on the command line, among definitions that can be read, is answered by its value, by a line that
says that it has none, or by why it cannot be read; an integer in it that is written with more digits than are read
breaks the program off. There is no session, and the input is not looked at. -/
theorem run_command {before after : List String} {source : String}
    (accepted : ∀ text ∈ before ++ after, ∃ d e, Definition.ofText text = .ok d ∧ Expr.read d.source = .ok e)
    (nonempty : source ≠ "") (notMark : source ≠ "--") :
    ∃ c ending, contextOf Context.defaultDepth (before ++ after) = .ok c
      ∧ plan (commandLine before source after) = .finished ending
      ∧ (∀ look input, run (commandLine before source after) look input = ending)
      ∧ ((∃ value, c.evaluate source = .ok value ∧ ending = .finished 0 ⟨value.render ++ "\n", ""⟩)
        ∨ (∃ failure, c.evaluate source = .error failure ∧ failure.kind.isEvaluation = true
          ∧ ending = .finished 1 ⟨"<cannot evaluate>\n", ""⟩)
        ∨ (∃ failure, Expr.read source = .error failure ∧ failure.kind = .parse
          ∧ ending = .finished 1 ⟨"", "Syntax error: " ++ failure.message ++ "\n"⟩)
        ∨ ∃ failure, Expr.read source = .error failure ∧ failure.ExceedsDigits source.toList
          ∧ ending = .brokenOff ⟨"", ""⟩ failure) := by
  have notMarks : ∀ text ∈ before ++ after, text ≠ "--" := by
    rintro _ member rfl
    obtain ⟨d, e, written, -⟩ := accepted "--" member
    cases written
  obtain ⟨c, made, entered⟩ := contextOf_accepted accepted Context.defaultDepth
  have planned : plan (commandLine before source after) = .finished (single false c source) := by
    have written : source.isEmpty = false := by simpa using nonempty
    rw [plan, ofArguments_commandLine notMarks notMark]
    simp only [planFor, made, Options.default, written]
    rfl
  refine ⟨c, single false c source, made, planned, ?_, ?_⟩
  · intro look input
    rw [run, planned, carryOut]
  · have entries_read : ∀ name e, c.entries.get? name = some e → ∃ text, Expr.read text = .ok e :=
      fun name e bound => (entered name e bound).2
    cases result : c.evaluate source with
    | ok value =>
      left
      refine ⟨value, rfl, ?_⟩
      simp only [single, result]
      rfl
    | error failure =>
      right
      obtain ⟨unread, parse | exceeds⟩ | noValue := Context.reason_of_evaluate entries_read result
      · right; left
        refine ⟨failure, unread, parse, ?_⟩
        simp only [single, result, if_pos parse]
        rfl
      · right; right
        refine ⟨failure, unread, exceeds, ?_⟩
        simp only [single, result, exceeds.kind]
        rfl
      · left
        have evaluation := noValue.kind.1
        have other : failure.kind ≠ .parse := by
          intro parse
          rw [parse] at evaluation
          cases evaluation
        refine ⟨failure, rfl, evaluation, ?_⟩
        simp only [single, result, if_neg other, evaluation, if_true]
        rfl

/-- An expression between two definitions, of which the first refers to the second. -/
theorem run_command_between :
    run (commandLine ["x = y * 2"] "x + y" ["y=21"]) (fun _ => .missing) "5\n"
      = .finished 0 ⟨"63\n", ""⟩ := by
  have accepted : ∀ text ∈ ["x = y * 2"] ++ ["y=21"],
      ∃ d e, Definition.ofText text = .ok d ∧ Expr.read d.source = .ok e := by
    simp only [List.singleton_append, List.forall_mem_cons, List.not_mem_nil, false_implies, implies_true, and_true]
    exact ⟨⟨_, _, rfl, rfl⟩, _, _, rfl, rfl⟩
  obtain ⟨c, ending, made, -, answered, cases⟩ := run_command accepted (by decide : "x + y" ≠ "") (by decide)
  have value : c.evaluate "x + y" = .ok (.int 63) := by
    cases made
    rfl
  rw [answered]
  obtain ⟨_, found, rfl⟩ | ⟨_, none, -⟩ | ⟨_, unread, -⟩ | ⟨_, unread, -⟩ := cases
  · rw [value] at found
    cases found
    rfl
  · rw [value] at none
    cases none
  · cases unread
  · cases unread

/-- The empty text is no expression, but neither is it reported: there is a session instead. So it is with the mark. -/
theorem run_command_empty :
    plan (commandLine [] "" []) = .session false (.empty 64) ∧ plan (commandLine [] "--" []) = .session false (.empty 64)
      ∧ Expr.read "" = .error .unexpectedEnd
      ∧ run (commandLine [] "" []) (fun _ => .missing) "5\n"
        = .finished 0 ⟨Prompt.banner ++ "veval> 5\nveval> \n", ""⟩ :=
  ⟨rfl, rfl, rfl,
    Ending.ext (by decide +kernel) (by decide +kernel) (Option.isNone_iff_eq_none.1 (by decide +kernel))⟩

end Program

end NamedExpr
