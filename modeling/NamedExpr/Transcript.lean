import NamedExpr.Statement
/-!
# Transcripts

What a program writes: its output and its messages, each a text that grows at the end.
-/

namespace NamedExpr

/-- The output and the messages of a program. -/
@[ext]
structure Transcript where
  out : String
  err : String
  deriving Repr, DecidableEq

namespace Transcript

/-- Nothing has been written. -/
def empty : Transcript := ⟨"", ""⟩

/-- One transcript after another. -/
def append (s t : Transcript) : Transcript := ⟨s.out ++ t.out, s.err ++ t.err⟩

instance : Append Transcript := ⟨append⟩

@[simp]
theorem out_append (s t : Transcript) : (s ++ t).out = s.out ++ t.out := rfl

@[simp]
theorem err_append (s t : Transcript) : (s ++ t).err = s.err ++ t.err := rfl

@[simp]
theorem empty_append (t : Transcript) : empty ++ t = t := by ext1 <;> simp [empty]

@[simp]
theorem append_empty (t : Transcript) : t ++ empty = t := by ext1 <;> simp [empty]

theorem append_assoc (s t u : Transcript) : s ++ t ++ u = s ++ (t ++ u) := by
  ext1 <;> simp [String.append_assoc]

/-- A text in the output. -/
def output (text : String) : Transcript := ⟨text, ""⟩

@[simp]
theorem output_append (first second : String) : output first ++ output second = output (first ++ second) := by
  ext1 <;> simp [output]

/-- A line in the output. -/
def printed (text : String) : Transcript := ⟨text ++ "\n", ""⟩

theorem printed_eq (text : String) : printed text = output (text ++ "\n") := rfl

/-- A line among the messages. -/
def reported (text : String) : Transcript := ⟨"", text ++ "\n"⟩

/-- Lines among the messages. -/
def logged (lines : List String) : Transcript := ⟨"", String.join (lines.map (· ++ "\n"))⟩

/-- What a statement prints, and what it logs if logs are kept. -/
def ofEffect (verbose : Bool) (effect : Effect) : Transcript :=
  (if verbose then logged effect.log else empty) ++
    match effect.output? with
    | some text => printed text
    | none => empty

end Transcript

/-- What a program has written when it ends, and the status it ends with. It breaks off with a failure that
it does not report. -/
@[ext]
structure Ending where
  status : Nat
  transcript : Transcript
  uncaught? : Option Failure

namespace Ending

/-- A program ends by itself. -/
def finished (status : Nat) (written : Transcript) : Ending := ⟨status, written, none⟩

/-- A program breaks off. -/
def brokenOff (written : Transcript) (failure : Failure) : Ending := ⟨1, written, some failure⟩

/-- An ending of a program that has written something before. -/
def after (written : Transcript) (ending : Ending) : Ending :=
  { ending with transcript := written ++ ending.transcript }

@[simp]
theorem after_finished (written later : Transcript) (status : Nat) :
    after written (finished status later) = finished status (written ++ later) := rfl

@[simp]
theorem after_brokenOff (written later : Transcript) (failure : Failure) :
    after written (brokenOff later failure) = brokenOff (written ++ later) failure := rfl

@[simp]
theorem after_empty (ending : Ending) : after .empty ending = ending := by
  rw [after, Transcript.empty_append]

theorem after_after (first second : Transcript) (ending : Ending) :
    after first (after second ending) = after (first ++ second) ending := by
  simp only [after, Transcript.append_assoc]

end Ending

end NamedExpr
