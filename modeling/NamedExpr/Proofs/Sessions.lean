import NamedExpr.Proofs.Lines
import NamedExpr.Proofs.Statements
/-!
# Scripts and sessions

A script and a session at the prompt run the same statements (`Statement.Runs`) and print the same for them, up to the
first that fails. A script ends there (`Script.runFrom_append`), and a session goes on as if nothing had been entered
(`Prompt.session_append`). What is skipped in a script only counts as a line (`script_agrees_with_prompt`).
-/

namespace NamedExpr

/-- What the report of a failed statement starts with. -/
def Failure.heading (failure : Failure) : String := if failure.kind = .parse then "Syntax error" else "Error"

namespace Statement

/-- Lines are run one after the other, each without what stands around it and in the context that the one before it
left, and none of them fails. -/
inductive Runs : Context → List String → List (Option String) → Context → Prop where
  | nil (c : Context) : Runs c [] [] c
  | cons {c c' : Context} {line : String} {lines : List String} {effect : Effect} {outputs : List (Option String)}
      (ran : runLine c (Text.trim line) = .ok effect) (rest : Runs effect.context lines outputs c') :
      Runs c (line :: lines) (effect.output? :: outputs) c'

/-- Lines run, or there is a first among them that fails. -/
theorem runs_or_stops (c : Context) (lines : List String) :
    (∃ outputs c', Runs c lines outputs c')
      ∨ ∃ before line after outputs c' failure, lines = before ++ line :: after ∧ Runs c before outputs c'
        ∧ runLine c' (Text.trim line) = .error failure := by
  induction lines generalizing c with
  | nil => exact .inl ⟨[], c, .nil c⟩
  | cons line lines ih =>
    cases ran : runLine c (Text.trim line) with
    | error failure => exact .inr ⟨[], line, lines, [], c, failure, rfl, .nil c, ran⟩
    | ok effect =>
      obtain ⟨outputs, c', runs⟩ | ⟨before, stop, after, outputs, c', failure, rfl, runs, fails⟩ := ih effect.context
      · exact .inl ⟨_, c', .cons ran runs⟩
      · exact .inr ⟨line :: before, stop, after, _, c', failure, rfl, .cons ran runs, fails⟩

theorem Runs.holdsExprs {c c' : Context} {lines : List String} {outputs : List (Option String)}
    (runs : Runs c lines outputs c') (holds : c.HoldsExprs) : c'.HoldsExprs := by
  induction runs with
  | nil => exact holds
  | cons ran _ ih => exact ih ((changes_of_runLine ran).holdsExprs holds)

/-- An output as it is written. -/
def written : Option String → String
  | some text => text ++ "\n"
  | none => ""

end Statement

open Statement

theorem Transcript.ofEffect_quiet (effect : Effect) : ofEffect false effect = output (written effect.output?) := by
  rw [ofEffect]
  cases effect.output? with
  | none => exact empty_append _
  | some text => exact empty_append _

/-- A line that is a statement in a script and at the prompt. -/
structure IsStatement (line : String) : Prop where
  oneLine : '\n' ∉ line.toList
  noReturn : '\r' ∉ line.toList
  noBreak : line ≠ "\x03"
  kept : Script.isSkipped (Text.trim line) = false
  noCommand : (Text.trim line).toLower ∉ ["exit", "quit", "help"]

instance (line : String) : Decidable (IsStatement line) :=
  decidable_of_iff ('\n' ∉ line.toList ∧ '\r' ∉ line.toList ∧ line ≠ "\x03"
      ∧ Script.isSkipped (Text.trim line) = false ∧ (Text.trim line).toLower ∉ ["exit", "quit", "help"])
    ⟨fun ⟨oneLine, noReturn, noBreak, kept, noCommand⟩ => ⟨oneLine, noReturn, noBreak, kept, noCommand⟩,
      fun ⟨oneLine, noReturn, noBreak, kept, noCommand⟩ => ⟨oneLine, noReturn, noBreak, kept, noCommand⟩⟩

/-! ## Scripts -/

namespace Script

/-- The text of a script. -/
def ofLines (lines : List String) : String := "\n".intercalate lines

/-- Whether a line of a script is a statement. -/
def keeps (line : String) : Bool := !isSkipped (Text.trim line)

/-- The statements of a script, with lines that are skipped between them. -/
structure IsPadded (lines padded : List String) : Prop where
  kept : padded.filter keeps = lines
  oneLine : ∀ line ∈ padded, '\n' ∉ line.toList
  noReturn : ∀ line ∈ padded, '\r' ∉ line.toList

theorem isPadded_self {lines : List String} (statements : ∀ line ∈ lines, IsStatement line) : IsPadded lines lines where
  kept := List.filter_eq_self.2 fun line member => by simp [keeps, (statements line member).kept]
  oneLine := fun line member => (statements line member).oneLine
  noReturn := fun line member => (statements line member).noReturn

theorem complaint_eq (number : Nat) (failure : Failure) :
    complaint number failure = failure.heading ++ " on line " ++ toString number ++ ": " ++ failure.message := by
  unfold complaint Failure.heading
  split <;> rfl

/-- A script is run line by line. -/
theorem run_ofLines {lines : List String} (oneLine : ∀ line ∈ lines, '\n' ∉ line.toList)
    (noReturn : ∀ line ∈ lines, '\r' ∉ line.toList) (verbose : Bool) (c : Context) :
    run verbose c (ofLines lines) = runFrom verbose c 1 lines := by
  cases lines with
  | nil => rfl
  | cons line lines =>
    rw [run, ofLines, normalizeEnds_of_not_mem (not_mem_intercalate (by decide) noReturn),
      splitLines_intercalate (by simp) oneLine, runLines]

/-- What comes after statements that run goes on in the context that they leave, and after what they print. -/
theorem runFrom_append {c c' : Context} {lines padded : List String} {outputs : List (Option String)}
    (kept : padded.filter keeps = lines) (runs : Runs c lines outputs c') (number : Nat) (rest : List String) :
    runFrom false c number (padded ++ rest)
      = (runFrom false c' (number + padded.length) rest).after (.output (String.join (outputs.map written))) := by
  induction padded generalizing c number lines outputs with
  | nil =>
    cases kept
    cases runs
    exact (Ending.after_empty _).symm
  | cons line padded ih =>
    have next : number + (line :: padded).length = number + 1 + padded.length := by
      rw [List.length_cons]
      omega
    rw [List.cons_append, runFrom, next]
    by_cases skipped : isSkipped (Text.trim line) = true
    · rw [List.filter_cons_of_neg (by simp [keeps, skipped])] at kept
      simp only [skipped, if_true]
      exact ih kept runs (number + 1)
    · rw [List.filter_cons_of_pos (by simp [keeps, skipped])] at kept
      subst kept
      cases runs with
      | cons ran later =>
        simp only [if_neg skipped, Bool.false_eq_true, if_false, ran, ih rfl later (number + 1),
          Transcript.ofEffect_quiet, Ending.after_after, Transcript.empty_append, Transcript.output_append,
          List.map_cons, String.join_cons]

/-- Statements that run are a script that runs to its end. -/
theorem run_padded {c c' : Context} {lines padded : List String} {outputs : List (Option String)}
    (isPadded : IsPadded lines padded) (runs : Runs c lines outputs c') :
    run false c (ofLines padded) = .finished 0 (.output (String.join (outputs.map written))) := by
  have whole := runFrom_append isPadded.kept runs 1 []
  rw [List.append_nil] at whole
  rw [run_ofLines isPadded.oneLine isPadded.noReturn, whole, runFrom, Ending.after_finished, Transcript.append_empty]

/-- How a script ends at a statement that fails in the line of a number: with a report, or broken off. -/
def stopAt (number : Nat) (failure : Failure) : Ending :=
  if failure.kind.isReported then
    .finished 1 (.reported (failure.heading ++ " on line " ++ toString number ++ ": " ++ failure.message))
  else .brokenOff .empty failure

theorem stopAt_of_reported {failure : Failure} (reported : failure.kind.isReported = true) (number : Nat)
    (text : String) :
    (stopAt number failure).after (.output text) = .finished 1
      ⟨text, failure.heading ++ " on line " ++ toString number ++ ": " ++ failure.message ++ "\n"⟩ := by
  rw [stopAt, if_pos reported, Ending.after_finished]
  refine congrArg (Ending.finished 1) ?_
  ext1 <;> simp [Transcript.output, Transcript.reported]

theorem stopAt_of_not_reported {failure : Failure} (reported : failure.kind.isReported = false) (number : Nat)
    (text : String) : (stopAt number failure).after (.output text) = .brokenOff ⟨text, ""⟩ failure := by
  rw [stopAt, if_neg (by simp [reported]), Ending.after_brokenOff, Transcript.append_empty]
  rfl

/-- A statement that fails after others that run ends a script in its line. -/
theorem run_padded_stops {c c' : Context} {before after padded : List String} {line : String}
    {outputs : List (Option String)} {failure : Failure} (isPadded : IsPadded (before ++ line :: after) padded)
    (runs : Runs c before outputs c') (fails : runLine c' (Text.trim line) = .error failure) :
    ∃ first rest, padded = first ++ line :: rest ∧ first.filter keeps = before
      ∧ run false c (ofLines padded)
        = (stopAt (before.length + (first.filter (!keeps ·)).length + 1) failure).after
          (.output (String.join (outputs.map written))) := by
  obtain ⟨firstPart, secondPart, rfl, keptBefore, keptAfter⟩ := List.filter_eq_append_iff.1 isPadded.kept
  obtain ⟨between, rest, rfl, skipped, keptLine, -⟩ := List.filter_eq_cons_iff.1 keptAfter
  have kept : (firstPart ++ between).filter keeps = before := by
    rw [List.filter_append, keptBefore, List.filter_eq_nil_iff.2 skipped, List.append_nil]
  have split : firstPart ++ (between ++ line :: rest) = (firstPart ++ between) ++ line :: rest :=
    (List.append_assoc firstPart between (line :: rest)).symm
  refine ⟨firstPart ++ between, rest, split, kept, ?_⟩
  have count := List.length_eq_length_filter_add (l := firstPart ++ between) keeps
  have number : 1 + (firstPart ++ between).length
      = before.length + ((firstPart ++ between).filter (!keeps ·)).length + 1 := by
    rw [count, kept]
    omega
  have notSkipped : ¬isSkipped (Text.trim line) = true := by simpa [keeps] using keptLine
  rw [run_ofLines isPadded.oneLine isPadded.noReturn, split, runFrom_append kept runs, runFrom, number, stopAt]
  simp only [if_neg notSkipped, fails, complaint_eq, Bool.false_eq_true, if_false, Transcript.empty_append]

theorem run_stops {c c' : Context} {before after : List String} {line : String} {outputs : List (Option String)}
    {failure : Failure} (statements : ∀ other ∈ before ++ line :: after, IsStatement other)
    (runs : Runs c before outputs c') (fails : runLine c' (Text.trim line) = .error failure) :
    run false c (ofLines (before ++ line :: after))
      = (stopAt (before.length + 1) failure).after (.output (String.join (outputs.map written))) := by
  obtain ⟨first, rest, split, -, ran⟩ := run_padded_stops (isPadded_self statements) runs fails
  have all : ∀ other ∈ first, keeps other = true := by
    intro other member
    have statement := statements other (split ▸ List.mem_append_left _ member)
    simp [keeps, statement.kept]
  have none : first.filter (!keeps ·) = [] := by
    rw [List.filter_eq_nil_iff]
    intro other member
    simp [all other member]
  rw [ran, none]
  rfl

end Script

/-! ## Sessions at the prompt -/

namespace Prompt

/-- What is entered if lines are entered one after the other. -/
def typed (lines : List String) : String := String.join (lines.map (· ++ "\n"))

theorem complaint_eq (failure : Failure) : complaint failure = failure.heading ++ ": " ++ failure.message := by
  unfold complaint Failure.heading
  split <;> rfl

theorem run_typed {lines : List String} (statements : ∀ line ∈ lines, IsStatement line) (verbose : Bool) (c : Context) :
    run verbose c (typed lines) = (session verbose c (lines.map .line)).after (.output banner) := by
  rw [run, typed, entries_join (fun line member => (statements line member).oneLine) fun line member =>
    (statements line member).noBreak]

/-- A statement is run, and a session goes on with the context that it leaves. If it fails, the session goes on as it
was if the failure is reported, and else breaks off. -/
theorem answer_statement {line : String} (statement : IsStatement line) (c : Context) :
    answer false c (.line line)
      = match runLine c (Text.trim line) with
        | .ok effect => ⟨.output (written effect.output?), .entry effect.context⟩
        | .error failure =>
          if failure.kind.isReported then ⟨.printed (complaint failure), .entry c⟩
          else ⟨.empty, .breaksOff failure⟩ := by
  have kept := statement.kept
  have noCommand := statement.noCommand
  simp only [Script.isSkipped, Bool.or_eq_false_iff] at kept
  simp only [List.mem_cons, List.not_mem_nil, or_false, not_or] at noCommand
  obtain ⟨notExit, notQuit, notHelp⟩ := noCommand
  simp only [answer, kept.1, Bool.false_eq_true, if_false, notExit, notQuit, notHelp, or_self]
  cases runLine c (Text.trim line) with
  | ok effect => simp only [Transcript.ofEffect_quiet]
  | error failure => rfl

/-- What comes after statements that run goes on in the context that they leave, and after what they print, each at its
mark. -/
theorem session_append {c c' : Context} {lines : List String} {outputs : List (Option String)}
    (statements : ∀ line ∈ lines, IsStatement line) (runs : Runs c lines outputs c') (rest : List Entry) :
    session false c (lines.map .line ++ rest)
      = (session false c' rest).after (.output (String.join (outputs.map (mark ++ written ·)))) := by
  induction runs with
  | nil => exact (Ending.after_empty _).symm
  | cons ran _ ih =>
    obtain ⟨first, others⟩ := List.forall_mem_cons.1 statements
    simp only [List.map_cons, List.cons_append, session, answer_statement first, ran, ih others, Ending.after_after,
      Transcript.output_append, String.join_cons]

theorem answer_err (c : Context) (entry : Entry) : (answer false c entry).transcript.err = "" := by
  unfold answer
  split
  · rfl
  · simp only
    split_ifs
    · rfl
    · rfl
    · rfl
    · split
      · rw [Transcript.ofEffect_quiet]
        rfl
      · split <;> rfl

/-- A session writes nothing but output. -/
theorem session_err (c : Context) (entries : List Entry) : (session false c entries).transcript.err = "" := by
  induction entries generalizing c with
  | nil => rfl
  | cons entry rest ih =>
    simp only [session]
    split <;> simp [Ending.after, Ending.finished, Ending.brokenOff, Transcript.output, answer_err, ih]

/-- Among expressions, a session goes on among expressions after an entry, or ends. -/
theorem next_of_holdsExprs {c : Context} (holds : c.HoldsExprs) (verbose : Bool) (entry : Entry) :
    (∃ c', (answer verbose c entry).next = .entry c' ∧ c'.HoldsExprs) ∨ (answer verbose c entry).next = .ends := by
  unfold answer
  split
  · exact .inl ⟨c, rfl, holds⟩
  · rename_i text
    simp only
    split_ifs
    · exact .inl ⟨c, rfl, holds⟩
    · exact .inr rfl
    · exact .inl ⟨c, rfl, holds⟩
    · split
      · rename_i effect ran
        exact .inl ⟨effect.context, rfl, (changes_of_runLine ran).holdsExprs holds⟩
      · rename_i failure fails
        rw [if_pos (kind_of_run holds fails)]
        exact .inl ⟨c, rfl, holds⟩

/-- Among expressions, a session ends by itself. -/
theorem session_of_holdsExprs {c : Context} (holds : c.HoldsExprs) (verbose : Bool) (entries : List Entry) :
    (session verbose c entries).status = 0 ∧ (session verbose c entries).uncaught? = none := by
  induction entries generalizing c with
  | nil => exact ⟨rfl, rfl⟩
  | cons entry rest ih =>
    simp only [session]
    obtain ⟨c', next, holds'⟩ | ends := next_of_holdsExprs holds verbose entry
    · simp only [next]
      exact ih holds'
    · simp only [ends]
      exact ⟨rfl, rfl⟩

/-- How a session goes on from a statement that fails: with a report and in the same context, or broken off. -/
def goOn (c : Context) (entries : List Entry) (failure : Failure) : Ending :=
  if failure.kind.isReported then
    (session false c entries).after (.printed (failure.heading ++ ": " ++ failure.message))
  else .brokenOff .empty failure

theorem goOn_of_reported {failure : Failure} (reported : failure.kind.isReported = true) (c : Context)
    (entries : List Entry) (text : String) :
    (goOn c entries failure).after (.output text)
      = (session false c entries).after ⟨text ++ failure.heading ++ ": " ++ failure.message ++ "\n", ""⟩ := by
  rw [goOn, if_pos reported, Ending.after_after, Transcript.printed_eq, Transcript.output_append]
  simp only [← String.append_assoc]
  rfl

theorem goOn_of_not_reported {failure : Failure} (reported : failure.kind.isReported = false) (c : Context)
    (entries : List Entry) (text : String) :
    (goOn c entries failure).after (.output text) = .brokenOff ⟨text, ""⟩ failure := by
  rw [goOn, if_neg (by simp [reported]), Ending.after_brokenOff, Transcript.append_empty]
  rfl

/-- A statement that fails after others that run is answered at its mark. -/
theorem run_stops {c c' : Context} {before after : List String} {line : String} {outputs : List (Option String)}
    {failure : Failure} (statements : ∀ other ∈ before ++ line :: after, IsStatement other)
    (runs : Runs c before outputs c') (fails : runLine c' (Text.trim line) = .error failure) :
    run false c (typed (before ++ line :: after))
      = (goOn c' (after.map .line) failure).after
        (.output (banner ++ String.join (outputs.map (mark ++ written ·)) ++ mark)) := by
  obtain ⟨ofBefore, ofRest⟩ := List.forall_mem_append.1 statements
  have ofLine := ofRest line List.mem_cons_self
  rw [run_typed statements, List.map_append, List.map_cons, session_append ofBefore runs, session,
    answer_statement ofLine, fails, goOn]
  cases reported : failure.kind.isReported with
  | true =>
    simp only [reported, if_true, Ending.after_after, complaint_eq, Transcript.printed_eq, Transcript.output_append,
      ← String.append_assoc]
  | false =>
    simp only [reported, Bool.false_eq_true, if_false, Ending.after_brokenOff, Transcript.append_empty,
      Transcript.output_append, ← String.append_assoc]

end Prompt

/-! ## Both together -/

/-- A script and a session at the prompt run the same statements and print the same for them. If none of them fails,
both run to the end. Otherwise the script ends at the first that fails, and reports it with the number of its line; the
session reports it without, and goes on in the context before it as a session that starts there. Lines that are skipped
in the script change nothing but the number, by how many of them come before. A failure that is not reported, which no
statement has among expressions, breaks both off. -/
theorem script_agrees_with_prompt (c : Context) {lines : List String}
    (statements : ∀ line ∈ lines, IsStatement line) :
    ((∃ outputs c', Runs c lines outputs c')
      ∨ ∃ before line after outputs c' failure, lines = before ++ line :: after ∧ Runs c before outputs c'
        ∧ runLine c' (Text.trim line) = .error failure)
      ∧ (∀ outputs c', Runs c lines outputs c' →
        Script.run false c (Script.ofLines lines) = .finished 0 ⟨String.join (outputs.map written), ""⟩
          ∧ Prompt.run false c (Prompt.typed lines)
            = .finished 0
              ⟨Prompt.banner ++ String.join (outputs.map (Prompt.mark ++ written ·)) ++ Prompt.mark ++ "\n", ""⟩
          ∧ ∀ padded, Script.IsPadded lines padded →
            Script.run false c (Script.ofLines padded) = .finished 0 ⟨String.join (outputs.map written), ""⟩)
      ∧ ∀ before line after outputs c' failure, lines = before ++ line :: after → Runs c before outputs c' →
        runLine c' (Text.trim line) = .error failure →
        (c.HoldsExprs → failure.kind.isReported = true)
          ∧ (failure.kind.isReported = true →
            Script.run false c (Script.ofLines lines) = .finished 1 ⟨String.join (outputs.map written),
              failure.heading ++ " on line " ++ toString (before.length + 1) ++ ": " ++ failure.message ++ "\n"⟩
            ∧ (∃ later : Ending, Prompt.run false c (Prompt.typed lines)
                = later.after ⟨Prompt.banner ++ String.join (outputs.map (Prompt.mark ++ written ·)) ++ Prompt.mark
                  ++ failure.heading ++ ": " ++ failure.message ++ "\n", ""⟩
              ∧ Prompt.run false c' (Prompt.typed after) = later.after ⟨Prompt.banner, ""⟩
              ∧ later.transcript.err = "" ∧ (c.HoldsExprs → later.status = 0 ∧ later.uncaught? = none))
            ∧ ∀ padded, Script.IsPadded lines padded →
              ∃ first rest, padded = first ++ line :: rest ∧ first.filter Script.keeps = before
                ∧ Script.run false c (Script.ofLines padded) = .finished 1 ⟨String.join (outputs.map written),
                  failure.heading ++ " on line "
                    ++ toString (before.length + (first.filter (!Script.keeps ·)).length + 1) ++ ": "
                    ++ failure.message ++ "\n"⟩)
          ∧ (failure.kind.isReported = false →
            Prompt.run false c (Prompt.typed lines)
              = .brokenOff ⟨Prompt.banner ++ String.join (outputs.map (Prompt.mark ++ written ·)) ++ Prompt.mark, ""⟩
                failure
            ∧ ∀ padded, Script.IsPadded lines padded →
              Script.run false c (Script.ofLines padded)
                = .brokenOff ⟨String.join (outputs.map written), ""⟩ failure) := by
  have itself := Script.isPadded_self statements
  refine ⟨runs_or_stops c lines, ?_, ?_⟩
  · intro outputs c' runs
    refine ⟨Script.run_padded itself runs, ?_, fun padded isPadded => Script.run_padded isPadded runs⟩
    have whole := Prompt.session_append statements runs []
    rw [List.append_nil] at whole
    rw [Prompt.run_typed statements, whole]
    simp only [Prompt.session, Ending.after_finished, Transcript.printed_eq, Transcript.output_append,
      String.empty_append, ← String.append_assoc]
    rfl
  · rintro before line after outputs c' failure rfl runs fails
    have ofAfter : ∀ other ∈ after, IsStatement other := fun other member =>
      statements other (List.mem_append_right _ (List.mem_cons_of_mem _ member))
    refine ⟨fun holds => kind_of_run (runs.holdsExprs holds) fails, ?_, ?_⟩
    · intro reported
      refine ⟨?_, ⟨Prompt.session false c' (after.map .line), ?_, ?_, Prompt.session_err c' _, ?_⟩, ?_⟩
      · rw [Script.run_stops statements runs fails, Script.stopAt_of_reported reported]
      · rw [Prompt.run_stops statements runs fails, Prompt.goOn_of_reported reported]
      · rw [Prompt.run_typed ofAfter]
        rfl
      · exact fun holds => Prompt.session_of_holdsExprs (runs.holdsExprs holds) false _
      · intro padded isPadded
        obtain ⟨first, rest, split, kept, ran⟩ := Script.run_padded_stops isPadded runs fails
        exact ⟨first, rest, split, kept, by rw [ran, Script.stopAt_of_reported reported]⟩
    · intro unreported
      refine ⟨?_, fun padded isPadded => ?_⟩
      · rw [Prompt.run_stops statements runs fails, Prompt.goOn_of_not_reported unreported]
      · obtain ⟨first, rest, -, -, ran⟩ := Script.run_padded_stops isPadded runs fails
        rw [ran, Script.stopAt_of_not_reported unreported]

/-- A definition that is entered before what it refers to, a line that is no definition, and one after it. -/
theorem script_agrees_with_prompt_definitions :
    let before := ["let a = b", "  a + 1", "let b = 41 ", "a + 1"]
    let lines := before ++ ["let 5", "b"]
    let c : Context := .empty 64
    Script.run false c (Script.ofLines lines)
        = .finished 1 ⟨"<cannot evaluate>\n42\n", "Error on line 5: Expected NAME=EXPR, got '5'\n"⟩
      ∧ Prompt.run false c (Prompt.typed lines)
        = .finished 0 ⟨Prompt.banner ++ "veval> veval> <cannot evaluate>\nveval> veval> 42\n"
          ++ "veval> Error: Expected NAME=EXPR, got '5'\nveval> 41\nveval> \n", ""⟩
      ∧ Script.run false c (Script.ofLines ("# names" :: before ++ ["", "let 5", " # the end", "b"]))
        = .finished 1 ⟨"<cannot evaluate>\n42\n", "Error on line 7: Expected NAME=EXPR, got '5'\n"⟩ := by
  intro before lines c
  have statements : ∀ line ∈ lines, IsStatement line := by decide +kernel
  let half : Context := ⟨Bindings.empty.insert "a" (.path ["b"]), 64⟩
  let c' : Context := ⟨half.entries.insert "b" (.literal (.int 41)), 64⟩
  let logged := "DEBUG veval.context: Cannot evaluate 'a + 1': UnresolvedName: Unresolved name: b"
  have runs : Runs c before [none, some "<cannot evaluate>", none, some "42"] c' := by
    have first : runLine c (Text.trim "let a = b") = .ok ⟨half, none, []⟩ := by rfl
    have second : runLine half (Text.trim "  a + 1") = .ok ⟨half, some "<cannot evaluate>", [logged]⟩ := by rfl
    have third : runLine half (Text.trim "let b = 41 ") = .ok ⟨c', none, []⟩ := by rfl
    have fourth : runLine c' (Text.trim "a + 1") = .ok ⟨c', some "42", []⟩ := by rfl
    exact .cons first (.cons second (.cons third (.cons fourth (.nil c'))))
  have fails : runLine c' (Text.trim "let 5") = .error (.notADefinition "5") := rfl
  obtain ⟨-, reported, -⟩ :=
    (script_agrees_with_prompt c statements).2.2 before "let 5" ["b"] _ c' _ rfl runs fails
  obtain ⟨script, ⟨later, session, goesOn, -, -⟩, -⟩ := reported rfl
  have rest : later = .finished 0 ⟨"veval> 41\nveval> \n", ""⟩ := by
    have alone : later.after ⟨Prompt.banner, ""⟩ = .finished 0 ⟨Prompt.banner ++ "veval> 41\nveval> \n", ""⟩ := by
      rw [← goesOn]
      exact Ending.ext (by decide +kernel) (by decide +kernel) (Option.isNone_iff_eq_none.1 (by decide +kernel))
    obtain ⟨status, written, uncaught⟩ := Ending.ext_iff.1 alone
    refine Ending.ext status (Transcript.ext ?_ ?_) uncaught
    · simpa [Ending.after, Ending.finished] using congrArg Transcript.out written
    · simpa [Ending.after, Ending.finished] using congrArg Transcript.err written
  refine ⟨script.trans (Ending.ext rfl (by decide +kernel) rfl), ?_,
    Ending.ext (by decide +kernel) (by decide +kernel) (Option.isNone_iff_eq_none.1 (by decide +kernel))⟩
  rw [session, rest]
  exact Ending.ext rfl (by decide +kernel) rfl

end NamedExpr
