import NamedExpr.CommandLine.Options
import NamedExpr.Prompt
import NamedExpr.Script
/-!
# The program

The command line decides what is run: the statements of a file, one expression, or a session at the
prompt. `Program.plan` is that decision, made before anything is read; `Program.run` carries it out on
files and an input that are given.
-/

namespace NamedExpr

/-- What a path leads to. -/
inductive Stored where
  | missing
  | directory
  | text (content : String)
  deriving Repr, DecidableEq

/-- What is left to do once the command line is understood. -/
inductive Plan where
  /-- Nothing. -/
  | finished (ending : Ending)
  /-- Run the statements of the file at a path. -/
  | script (verbose : Bool) (context : Context) (path : String)
  /-- Answer statements at the prompt. -/
  | session (verbose : Bool) (context : Context)

namespace Program

/-- How the program is called. -/
def usage : String :=
  "usage: veval [-h] [-D NAME=EXPR] [-c COMMAND] [-f FILE]\n             [--max-depth MAX_DEPTH] [-v]\n"

/-- The lines that say what the program is for and what its flags do. -/
def helpLines : List String :=
  ["",
    "Evaluate veval expressions interactively or from the command line",
    "",
    "options:",
    "  -h, --help            show this help message and exit",
    "  -D NAME=EXPR, --define NAME=EXPR",
    "                        Bind NAME to EXPR in the context (repeatable)",
    "  -c COMMAND, --command COMMAND",
    "                        Evaluate a single expression and exit",
    "  -f FILE, --file FILE  Execute statements from a file and exit",
    "  --max-depth MAX_DEPTH",
    "                        Maximum nesting of context references (default: 64)",
    "  -v, --verbose         Log why expressions cannot be evaluated, and echo",
    "                        statements for -f/--file"]

/-- The answer to a command line that asks for help. -/
def help : String := usage ++ String.join (helpLines.map (· ++ "\n"))

/-- The ending of a program whose command line gives no options. -/
def stopped : Stop → Ending
  | .help => .finished 0 (.output help)
  | .misuse m => .finished 2 ⟨"", usage ++ "veval: error: " ++ m.message ++ "\n"⟩

/-- The context of the definitions on the command line. -/
def contextOf (maxDepth : Int) (definitions : List String) : Except Failure Context :=
  definitions.foldlM (fun c text => (Definition.ofText text).bind fun d => d.insertInto c) (.empty maxDepth)

/-- Evaluates one expression. A failure that is neither to read it nor to have no value breaks the program off. -/
def single (verbose : Bool) (c : Context) (source : String) : Ending :=
  match c.evaluate source with
  | .ok value => .finished 0 (.printed (Statement.shown (some value)))
  | .error failure =>
    if failure.kind = .parse then .finished 1 (.reported ("Syntax error: " ++ failure.message))
    else if failure.kind.isEvaluation then
      .finished 1 (.printed (Statement.shown none) ++
        if verbose then .reported (failure.kind.name ++ ": " ++ failure.message) else .empty)
    else .brokenOff .empty failure

/-- What is left to do for some options. A file goes before an expression, and an empty expression is none. -/
def planFor (o : Options) : Plan :=
  match contextOf o.maxDepth o.definitions with
  | .error failure =>
    .finished <|
      if failure.kind.isReported then .finished 1 (.reported ("Error in definition: " ++ failure.message))
      else .brokenOff .empty failure
  | .ok c =>
    match o.file?, o.command? with
    | some path, _ => .script o.verbose c path
    | none, some source =>
      if source.isEmpty then .session o.verbose c else .finished (single o.verbose c source)
    | none, none => .session o.verbose c

/-- What is left to do for a command line. -/
def plan (arguments : List String) : Plan :=
  match Options.ofArguments arguments with
  | .error stop => .finished (stopped stop)
  | .ok o => planFor o

/-- Runs the statements of what is found at a path. -/
def runStored (verbose : Bool) (c : Context) (path : String) : Stored → Ending
  | .missing => .finished 1 (.reported ("Error: File not found: " ++ path))
  | .directory =>
    .finished 1 (.reported ("Error reading file: [Errno 21] Is a directory: " ++ Text.quoted path))
  | .text content => Script.run verbose c content

/-- Carries a plan out. -/
def carryOut (look : String → Stored) (input : String) : Plan → Ending
  | .finished ending => ending
  | .script verbose c path => runStored verbose c path (look path)
  | .session verbose c => Prompt.run verbose c input

/-- Runs the program with the given arguments, files and input. -/
def run (arguments : List String) (look : String → Stored) (input : String) : Ending :=
  carryOut look input (plan arguments)

end Program

end NamedExpr
