import NamedExpr.Transcript
/-!
# The prompt

At the prompt, statements are read one by one and answered. A statement that fails is reported and leaves
the context as it was, and any other failure breaks the session off; the end of the input or one of the words
`exit` and `quit` ends it.
-/

namespace NamedExpr

namespace Prompt

/-- What is entered at the prompt: a line, or a break instead of one. -/
inductive Entry where
  | line (text : String)
  | interrupt
  deriving Repr, DecidableEq

/-- How a session goes on after an entry. -/
inductive Next where
  | entry (context : Context)
  | ends
  | breaksOff (failure : Failure)

/-- The answer to an entry: what is written, and how the session goes on. -/
structure Answer where
  transcript : Transcript
  next : Next

/-- What is shown when a session starts. -/
def banner : String :=
  "veval REPL - expression evaluator\nType 'help' for commands, 'exit' to quit.\n\n"

/-- What asks for an entry. -/
def mark : String := "veval> "

/-- The lines that answer `help`. -/
def helpLines : List String :=
  [
    "",
    "veval - expression evaluator",
    "",
    "STATEMENTS:",
    "  let <name> = <expr>      Bind a name to an expression (evaluated lazily)",
    "  unset <name>             Remove a binding",
    "  context                  List all bindings",
    "  <expr>                   Evaluate an expression and print the result",
    "",
    "EXPRESSIONS:",
    "  Literals                 1  1_000  2.5  1e3  \"text\"  true  false  None",
    "  Arithmetic               + - * / %   (strings: \"a\" + \"b\", \"ab\" * 3)",
    "  Comparison               == != < > <= >=",
    "  Logic                    && || !     (both sides are always evaluated)",
    "  Ranges                   0..3  0..=3",
    "  Arrays and indexing      [1, 2, 3][0]   \"hello\"[1..3]",
    "  Options                  Some(x)  .unwrap()  .unwrap_or(y)  .and(y)  .or(y)  .xor(y)",
    "                           .is_some()  .is_none()  .is_option()",
    "  Type checks              .is_int()  .is_float()  .is_str()  .is_bool()  .is_vec()",
    "                           .is_range()  .is_same(y)",
    "  Numbers                  .abs()  .sqrt()  .powi(n)  .powf(x)  .ln()  .log10()  .sin()",
    "                           .trunc()  .round()  .floor()  .ceil()  .max(y)  .min(y)  ...",
    "",
    "Operators * / % bind tightest, then + -, then comparisons, then && and ||",
    "(which share one level). Operators on the same level group left to right.",
    "",
    "OTHER:",
    "  help                     Show this help",
    "  exit, quit               Exit the REPL",
    ""]

/-- The answer to `help`. -/
def help : String := String.join (helpLines.map (· ++ "\n"))

/-- How the failure of a statement is reported. -/
def complaint (failure : Failure) : String :=
  if failure.kind = .parse then "Syntax error: " ++ failure.message else "Error: " ++ failure.message

/-- The answer to an entry. -/
def answer (verbose : Bool) (c : Context) : Entry → Answer
  | .interrupt => ⟨.printed "", .entry c⟩
  | .line text =>
    let line := Text.trim text
    let command := line.toLower
    if line.isEmpty then ⟨.empty, .entry c⟩
    else if command = "exit" ∨ command = "quit" then ⟨.empty, .ends⟩
    else if command = "help" then ⟨.output help, .entry c⟩
    else
      match Statement.runLine c line with
      | .ok effect => ⟨.ofEffect verbose effect, .entry effect.context⟩
      | .error failure =>
        if failure.kind.isReported then ⟨.printed (complaint failure), .entry c⟩
        else ⟨.empty, .breaksOff failure⟩

/-- The entries of a session from the mark before the first on. After the last, the input ends. -/
def session (verbose : Bool) (c : Context) : List Entry → Ending
  | [] => .finished 0 (.output mark ++ .printed "")
  | entry :: rest =>
    let reply := answer verbose c entry
    let written := .output mark ++ reply.transcript
    match reply.next with
    | .entry c' => (session verbose c' rest).after written
    | .ends => .finished 0 written
    | .breaksOff failure => .brokenOff written failure

/-- The entry that a line ended by a line feed is. One that holds nothing but U+0003 is a break. -/
def entryOf (line : List Char) : Entry :=
  if line = ['\x03'] then .interrupt else .line (String.ofList line)

/-- The entries of the rest of an input, given the characters of the current line, last first. -/
def entriesFrom (line : List Char) : List Char → List Entry
  | [] => if line.isEmpty then [] else [.line (String.ofList line.reverse)]
  | '\n' :: rest => entryOf line.reverse :: entriesFrom [] rest
  | c :: rest => entriesFrom (c :: line) rest

/-- The entries of an input: its lines, of which the last may lack its line feed. -/
def entries (input : String) : List Entry := entriesFrom [] input.toList

/-- A session on a given input. -/
def run (verbose : Bool) (c : Context) (input : String) : Ending :=
  (session verbose c (entries input)).after (.output banner)

end Prompt

end NamedExpr
