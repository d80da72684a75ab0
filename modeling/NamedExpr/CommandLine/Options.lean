import NamedExpr.CommandLine.Flag
import NamedExpr.Context
import NamedExpr.Text.Integer
/-!
# Options

What a command line asks for. The words are taken from the left, each flag together with its value; the
first that cannot be taken is why the command line is refused, and words out of place are refused at the
end, all together.
-/

namespace NamedExpr

/-- What a command line asks for. -/
structure Options where
  definitions : List String
  command? : Option String
  file? : Option String
  maxDepth : Int
  verbose : Bool
  deriving Repr, DecidableEq

/-- Why there are no options: help is asked for, or the command line is refused. -/
inductive Stop where
  | help
  | misuse (m : Misuse)
  deriving Repr, DecidableEq

/-- What a word with a flag comes to: the flags with their values, words out of place, and whether the
value was the word after it. -/
structure Taken where
  flags : List (Flag × Option String)
  extra : List String
  usesNext : Bool

namespace Options

/-- Nothing is asked for. -/
def default : Options := ⟨[], none, none, Context.defaultDepth, false⟩

/-- The value of a flag that has none attached is the next word. -/
def takeNext (flag : Flag) (next? : Option String) : Except Misuse Taken :=
  if flag.takesValue then
    match next? with
    | some value => .ok ⟨[(flag, some value)], [], true⟩
    | none => .error (.missingValue flag)
  else .ok ⟨[(flag, none)], [], false⟩

/-- The flags of a word with one dash, from `flag` on. What follows the letter of a flag is its value; if the
flag takes none, it is the letter of the next flag and what follows that. -/
def takeShort (next? : Option String) (flag : Flag) : List Char → Except Misuse Taken
  | [] => takeNext flag next?
  | c :: rest =>
    if flag.takesValue then .ok ⟨[(flag, some (String.ofList (c :: rest)))], [], false⟩
    else
      match Flag.ofLetter? c with
      | none => .error (.unusedValue flag (String.ofList (c :: rest)))
      | some inner =>
        (takeShort next? inner rest).map fun taken => { taken with flags := (flag, none) :: taken.flags }

/-- A flag with the value attached to it. -/
def takeAttached (flag : Flag) (value : String) : Except Misuse Taken :=
  if flag.takesValue then .ok ⟨[(flag, some value)], [], false⟩ else .error (.unusedValue flag value)

/-- The flags of a word and their values. An `=` right after the first letter only sets off what follows, an
`=` further on belongs to the value. -/
def take (next? : Option String) : Argument → Except Misuse Taken
  | .value written | .other written => .ok ⟨[], [written], false⟩
  | .long flag none => takeNext flag next?
  | .long flag (some value) => takeAttached flag value
  | .short flag ['='] => takeAttached flag ""
  | .short flag ('=' :: rest) => takeShort next? flag rest
  | .short flag attached => takeShort next? flag attached

/-- The path that a text means: repeated slashes and steps to the same directory are left out. -/
def path (text : String) : String :=
  let root := if text.startsWith "///" then "/" else if text.startsWith "//" then "//"
    else if text.startsWith "/" then "/" else ""
  let steps := (text.splitOn "/").filter fun step => step ≠ "" ∧ step ≠ "."
  let joined := root ++ "/".intercalate steps
  if joined.isEmpty then "." else joined

/-- The options with one more flag. An attached `--` is no value: it defines nothing, and any other flag that
takes a value falls back to what it is without. -/
def set (o : Options) : Flag × Option String → Except Stop Options
  | (flag, written?) =>
    let value? := written?.filter (· ≠ "--")
    match flag with
    | .help => .error .help
    | .verbose => .ok { o with verbose := true }
    | .define => .ok { o with definitions := o.definitions ++ value?.toList }
    | .command => .ok { o with command? := value? }
    | .file => .ok { o with file? := value?.map path }
    | .maxDepth =>
      match value? with
      | none => .ok { o with maxDepth := default.maxDepth }
      | some value =>
        match Text.integer? value.toList with
        | some n => .ok { o with maxDepth := n }
        | none => .error (.misuse (.notAnInteger .maxDepth value))

/-- The word that may be the value of the flag before it. -/
def valueOf? : List Argument → Option String
  | .value written :: _ => some written
  | _ => none

/-- Takes the words one after the other. `extra` are those out of place, last first; the first word is left
out if it was `used` as the value of the flag before it. -/
def takeAll (o : Options) (extra : List String) (used : Bool) : List Argument → Except Stop Options
  | [] => if extra.isEmpty then .ok o else .error (.misuse (.unrecognized extra.reverse))
  | word :: rest =>
    if used then takeAll o extra false rest
    else
      match take (valueOf? rest) word with
      | .error m => .error (.misuse m)
      | .ok taken =>
        match taken.flags.foldlM set o with
        | .error stop => .error stop
        | .ok o => takeAll o (taken.extra.reverse ++ extra) taken.usesNext rest

/-- The options of a command line. -/
def ofArguments (arguments : List String) : Except Stop Options :=
  match Argument.ofWords arguments with
  | .error m => .error (.misuse m)
  | .ok words => takeAll default [] false words

end Options

end NamedExpr
