import NamedExpr.Text.Cut
import NamedExpr.Text.Digit
import NamedExpr.Text.Quoted
/-!
# Flags

The flags of the command line and the ways to write them: a long name may be shortened as long as one flag
has it, a value may be attached with `=` or, to a short name, directly, and short flags without a value
may share one dash with the next flag.
-/

namespace NamedExpr

/-- The flags. -/
inductive Flag where
  | help
  | define
  | command
  | file
  | maxDepth
  | verbose
  deriving Repr, DecidableEq

namespace Flag

/-- Whether a value follows the flag. -/
def takesValue : Flag → Bool
  | .help | .verbose => false
  | .define | .command | .file | .maxDepth => true

/-- The flag in messages: all its names. -/
def title : Flag → String
  | .help => "-h/--help"
  | .define => "-D/--define"
  | .command => "-c/--command"
  | .file => "-f/--file"
  | .maxDepth => "--max-depth"
  | .verbose => "-v/--verbose"

/-- The flag that a letter after one dash names. -/
def ofLetter? : Char → Option Flag
  | 'h' => some .help
  | 'D' => some .define
  | 'c' => some .command
  | 'f' => some .file
  | 'v' => some .verbose
  | _ => none

/-- The long names. -/
def longNames : List (String × Flag) :=
  [("--help", .help), ("--define", .define), ("--command", .command), ("--file", .file),
    ("--max-depth", .maxDepth), ("--verbose", .verbose)]

end Flag

/-- Why a command line is refused. -/
inductive Misuse where
  | ambiguous (written : String) (names : List String)
  | missingValue (flag : Flag)
  | unusedValue (flag : Flag) (value : String)
  | notAnInteger (flag : Flag) (value : String)
  | unrecognized (words : List String)
  deriving Repr, DecidableEq

namespace Misuse

/-- The wording of a refusal. -/
def message : Misuse → String
  | .ambiguous written names =>
    "ambiguous option: " ++ written ++ " could match " ++ ", ".intercalate names
  | .missingValue flag => "argument " ++ flag.title ++ ": expected one argument"
  | .unusedValue flag value =>
    "argument " ++ flag.title ++ ": ignored explicit argument " ++ Text.quoted value
  | .notAnInteger flag value => "argument " ++ flag.title ++ ": invalid int value: " ++ Text.quoted value
  | .unrecognized words => "unrecognized arguments: " ++ " ".intercalate words

end Misuse

/-- A word of the command line. -/
inductive Argument where
  /-- A value, or something out of place. -/
  | value (written : String)
  /-- A flag by its long name, and the value attached to it. -/
  | long (flag : Flag) (attached? : Option String)
  /-- A flag by its letter, and what follows it in the word. -/
  | short (flag : Flag) (attached : List Char)
  /-- A word that is written like a flag and is none, or the mark after which there are no flags. -/
  | other (written : String)
  deriving Repr, DecidableEq

namespace Argument

/-- The long names that start with a text. -/
def completions (start : List Char) : List (String × Flag) :=
  Flag.longNames.filter fun e => start.isPrefixOf e.1.toList

/-- Whether what follows a dash makes it a negative number: digits with at most one point, which has a digit
after it. A line feed at the end does not count. -/
def isNumber (cs : List Char) : Bool :=
  let body := if cs.getLast? = some '\n' then cs.dropLast else cs
  let whole := body.takeWhile Text.isDigit
  match body.drop whole.length with
  | [] => !whole.isEmpty
  | '.' :: places => !places.isEmpty && places.all Text.isDigit
  | _ => false

/-- A word that starts with one dash. -/
def ofOneDash (written : String) (rest : List Char) : Argument :=
  match rest with
  | [] => .value written
  | c :: attached =>
    match Flag.ofLetter? c with
    | some flag => .short flag attached
    | none => if isNumber rest || ' ' ∈ rest then .value written else .other written

/-- A word that starts with two dashes. -/
def ofTwoDashes (written : String) : Except Misuse Argument :=
  let (name, attached?) := Text.cut '=' written.toList
  let value? := attached?.map String.ofList
  match Flag.longNames.find? fun e => e.1.toList = name with
  | some (_, flag) => .ok (.long flag value?)
  | none =>
    match completions name with
    | [] => .ok (if ' ' ∈ written.toList then .value written else .other written)
    | [(_, flag)] => .ok (.long flag value?)
    | several => .error (.ambiguous written (several.map Prod.fst))

/-- A word before the mark that ends the flags. -/
def ofWord (written : String) : Except Misuse Argument :=
  match written.toList with
  | '-' :: '-' :: _ => ofTwoDashes written
  | '-' :: rest => .ok (ofOneDash written rest)
  | _ => .ok (.value written)

/-- The words of a command line. After `--` every word is a value. -/
def ofWords : List String → Except Misuse (List Argument)
  | [] => .ok []
  | written :: rest =>
    if written = "--" then .ok (.other written :: rest.map .value)
    else do
      let first ← ofWord written
      let others ← ofWords rest
      .ok (first :: others)

end Argument

end NamedExpr
