import NamedExpr.Transcript
/-!
# Scripts

A script is a text with a statement on each line. Blank lines and lines that start with `#` are skipped,
and the first statement that fails ends the script. What a statement can fail with is reported; any other
failure breaks the script off.
-/

namespace NamedExpr

namespace Script

/-- A text in which every line ends in a line feed, whichever of `\n`, `\r` and `\r\n` it ended in. -/
def normalizeEnds : List Char → List Char
  | '\r' :: '\n' :: rest => '\n' :: normalizeEnds rest
  | '\r' :: rest => '\n' :: normalizeEnds rest
  | c :: rest => c :: normalizeEnds rest
  | [] => []

/-- The parts of a text between line feeds, of which there is always at least one. -/
def splitLines : List Char → List (List Char)
  | [] => [[]]
  | '\n' :: rest => [] :: splitLines rest
  | c :: rest =>
    match splitLines rest with
    | [] => [[c]]
    | line :: lines => (c :: line) :: lines

/-- Whether a line without white space at its ends is skipped. -/
def isSkipped (line : String) : Bool := line.isEmpty || line.toList.head? == some '#'

/-- How the failure of a statement is reported. -/
def complaint (number : Nat) (failure : Failure) : String :=
  if failure.kind = .parse then s!"Syntax error on line {number}: {failure.message}"
  else s!"Error on line {number}: {failure.message}"

/-- Runs the lines from the one of the given number on. -/
def runFrom (verbose : Bool) (c : Context) (number : Nat) : List String → Ending
  | [] => .finished 0 .empty
  | raw :: rest =>
    let line := Text.trim raw
    if isSkipped line then runFrom verbose c (number + 1) rest
    else
      let echo := if verbose then Transcript.printed ("> " ++ line) else .empty
      match Statement.runLine c line with
      | .error failure =>
        if failure.kind.isReported then .finished 1 (echo ++ .reported (complaint number failure))
        else .brokenOff echo failure
      | .ok effect =>
        (runFrom verbose effect.context (number + 1) rest).after (echo ++ .ofEffect verbose effect)

/-- Runs the lines of a script. -/
def runLines (verbose : Bool) (c : Context) (lines : List String) : Ending := runFrom verbose c 1 lines

/-- Runs a script. -/
def run (verbose : Bool) (c : Context) (text : String) : Ending :=
  runLines verbose c ((splitLines (normalizeEnds text.toList)).map String.ofList)

end Script

end NamedExpr
