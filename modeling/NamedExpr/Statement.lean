import NamedExpr.Context
import NamedExpr.Text.Blank
import NamedExpr.Text.Cut
import NamedExpr.Text.Identifier
/-!
# Statements

A statement is one line: `let` binds a name, `unset` removes one, `context` lists them all, and anything
else is a text to evaluate.
-/

namespace NamedExpr

/-- A name and the text of the expression it shall stand for. -/
structure Definition where
  name : String
  source : String
  deriving Repr, DecidableEq

namespace Definition

/-- The definition that a text writes: an identifier, `=`, and the text of an expression. -/
def ofText (text : String) : Except Failure Definition :=
  match Text.cut '=' text.toList with
  | (_, none) => .error (.notADefinition text)
  | (before, some after) =>
    let name := Text.trimChars before
    if Text.isIdentifierChars name then
      .ok ⟨String.ofList name, String.ofList (Text.trimChars after)⟩
    else .error (.notADefinition text)

/-- The context with a definition put in. -/
def insertInto (d : Definition) (c : Context) : Except Failure Context := c.insert d.name d.source

end Definition

/-- A statement. -/
inductive Statement where
  /-- Binds a name; the text of the definition. -/
  | define (text : String)
  /-- Removes a name. -/
  | unset (name : String)
  /-- Lists the names and what they stand for. -/
  | list
  /-- Evaluates a text. -/
  | evaluate (source : String)
  deriving Repr, DecidableEq

/-- What a statement does: the context after it, what it prints, and what it logs. -/
structure Effect where
  context : Context
  output? : Option String
  log : List String

namespace Statement

/-- What a text that has no value is shown as. -/
def cannotEvaluate : String := "<cannot evaluate>"

/-- What the value of a text is shown as. -/
def shown (value? : Option Value) : String :=
  match value? with
  | some value => value.render
  | none => cannotEvaluate

/-- What follows a word at the start of a text. -/
def after? (word : String) (text : List Char) : Option (List Char) :=
  if word.toList.isPrefixOf text then some (text.drop word.length) else none

/-- The statement that a line is. -/
def ofLine (line : String) : Statement :=
  match after? "let " line.toList with
  | some rest => .define (String.ofList rest)
  | none =>
    match after? "unset " line.toList with
    | some rest => .unset (String.ofList (Text.trimChars rest))
    | none => if line = "context" then .list else .evaluate line

/-- The listing of a context, a name and its expression on each line. -/
def listing (c : Context) : Except Failure String := do
  if c.names.isEmpty then .ok "(empty)"
  else
    let lines ← c.names.mapM fun name => (c.sourceOf name).map fun source => name ++ " = " ++ source
    .ok ("\n".intercalate lines)

/-- Runs a statement. -/
def run (c : Context) : Statement → Except Failure Effect
  | .define text => do
    let definition ← Definition.ofText text
    let next ← definition.insertInto c
    .ok ⟨next, none, []⟩
  | .unset name =>
    if c.contains name then .ok ⟨c.remove name, none, []⟩ else .error (.notDefined name)
  | .list => (listing c).map fun text => ⟨c, some text, []⟩
  | .evaluate source =>
    (c.attempt source).map fun attempt => ⟨c, some (shown attempt.value?), attempt.log⟩

/-- Runs the statement that a line is. -/
def runLine (c : Context) (line : String) : Except Failure Effect := run c (ofLine line)

end Statement

end NamedExpr
