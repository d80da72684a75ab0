import NamedExpr.Expr
import NamedExpr.Token.Scan
/-!
# Reading expressions

An expression is read from the left, one token at a time, without looking ahead. What has been read is a
`Reading`: brackets that are open (`outer`), operators of the innermost bracket that wait for their right
operand (`pending`), and the operand at the end of it (`head`). `feed` takes one more token or refuses it;
every reading that is reached can be completed, so a refused token is the first one that no expression
goes on with.

Binary operators are settled by their levels, from the left; a prefix operator binds tighter than every
binary one, a suffix (call, field, index) tighter still, and a range looser than all, with no range as a
bound of another.
-/

namespace NamedExpr

/-- An operator that waits for its right operand. -/
inductive Pending where
  | unary (op : UnaryOperator)
  | reference
  | binary (op : Operator) (left : Expr)
  | range (start : Expr) (inclusive : Bool)

namespace Pending

/-- How tightly a pending operator binds the operand after it. -/
def level : Pending → Nat
  | .unary _ | .reference => 6
  | .binary op _ => op.readingLevel
  | .range .. => 0

/-- The expression that a pending operator makes with its right operand. -/
def complete : Pending → Expr → Expr
  | .unary op, e => .unary op.symbol e
  | .reference, e => .reference e
  | .binary op left, e => .binary op.symbol left e
  | .range start inclusive, e => .range start e inclusive

/-- Completes the pending operators that bind an operand at least as tightly as `least`, innermost first:
the expression they make, and the operators that go on waiting. -/
def settle (least : Nat) : List Pending → Expr → Expr × List Pending
  | [], e => (e, [])
  | p :: rest, e => if least ≤ p.level then settle least rest (p.complete e) else (e, p :: rest)

end Pending

/-- What a list of arguments belongs to. -/
inductive Owner where
  | method (receiver : Expr) (name : String)
  | function (segments : List String)
  | array

namespace Owner

/-- The brackets around the arguments. -/
def bracket : Owner → Bracket
  | .method .. | .function _ => .round
  | .array => .square

/-- The expression that the arguments complete. -/
def complete : Owner → List Expr → Expr
  | .method receiver name, args => .methodCall receiver name args
  | .function segments, args => .call segments args
  | .array, args => .array args

end Owner

/-- An open bracket. The arguments read so far stand last first. -/
inductive Opened where
  | paren
  | index (target : Expr)
  | arguments (owner : Owner) (done : List Expr)

namespace Opened

/-- The kind of the bracket. -/
def bracket : Opened → Bracket
  | .paren => .round
  | .index _ => .square
  | .arguments owner _ => owner.bracket

/-- The expression that a bracket makes when it closes after an expression. -/
def complete : Opened → Expr → Expr
  | .paren, e => .paren e
  | .index target, e => .index target e
  | .arguments owner done, e => owner.complete (e :: done).reverse

end Opened

/-- An open bracket and the operators that wait outside of it. -/
structure Layer where
  pending : List Pending
  opened : Opened

/-- The operand at the end of what has been read. -/
inductive Head where
  /-- An operand has to come. -/
  | missing
  /-- A path that may go on. -/
  | path (segments : List String)
  /-- A path after which `::` was read. -/
  | pathOpen (segments : List String)
  /-- An operand that only a suffix can extend. -/
  | operand (e : Expr)
  /-- An operand after which a point was read. -/
  | dotted (receiver : Expr)
  /-- An operand after which a point and a name were read. -/
  | member (receiver : Expr) (name : String)

namespace Head

/-- The operand, if it may end here. -/
def toExpr? : Head → Option Expr
  | .path segments => some (.path segments)
  | .operand e => some e
  | .member receiver name => some (.field receiver name)
  | .missing | .pathOpen _ | .dotted _ => none

end Head

/-- What has been read of an expression. -/
structure Reading where
  outer : List Layer
  pending : List Pending
  head : Head

namespace Reading

/-- Nothing has been read. -/
def start : Reading := ⟨[], [], .missing⟩

/-- Opens a bracket; the operators that wait now wait outside of it. -/
def openBracket (r : Reading) (opened : Opened) : Reading :=
  ⟨⟨r.pending, opened⟩ :: r.outer, [], .missing⟩

/-- Ends the operand with a literal. -/
def literal (r : Reading) (value : Literal) : Reading := { r with head := .operand (.literal value) }

/-- Adds an operator that waits for its right operand, which has to come. -/
def await (r : Reading) (p : Pending) : Reading := { r with pending := p :: r.pending, head := .missing }

/-- Closes a list of arguments that is empty or ends in a comma. -/
def closeArguments (r : Reading) (b : Bracket) : Option Reading :=
  match r.pending, r.outer with
  | [], ⟨pending, .arguments owner done⟩ :: outer =>
    if owner.bracket = b then some ⟨outer, pending, .operand (owner.complete done.reverse)⟩ else none
  | _, _ => none

/-- Takes a token where an operand has to come. -/
def feedMissing (r : Reading) : Lexeme → Option Reading
  | .integer n => some (r.literal (.int n))
  | .float x => some (r.literal (.float x))
  | .text s => some (r.literal (.str s))
  | .boolean b => some (r.literal (.bool b))
  | .none => some (r.literal .none)
  | .name n => some { r with head := .path [n] }
  | .operator .sub => some (r.await (.unary .neg))
  | .bang => some (r.await (.unary .not))
  | .ampersand => some (r.await .reference)
  | .opening .round => some (r.openBracket .paren)
  | .opening .square => some (r.openBracket (.arguments .array []))
  | .closing b => r.closeArguments b
  | _ => none

/-- Closes a bracket after the expression `e` in it. -/
def closeAfter (r : Reading) (b : Bracket) (e : Expr) : Option Reading :=
  match r.outer with
  | ⟨pending, opened⟩ :: outer =>
    if opened.bracket = b then
      some ⟨outer, pending, .operand (opened.complete (Pending.settle 0 r.pending e).1)⟩
    else none
  | [] => none

/-- Goes on to the next argument after the expression `e`. -/
def nextArgument (r : Reading) (e : Expr) : Option Reading :=
  match r.outer with
  | ⟨pending, .arguments owner done⟩ :: outer =>
    let argument := (Pending.settle 0 r.pending e).1
    some ⟨⟨pending, .arguments owner (argument :: done)⟩ :: outer, [], .missing⟩
  | _ => none

/-- Takes a token after the operand `e`. -/
def feedAfter (r : Reading) (e : Expr) : Lexeme → Option Reading
  | .dot => some { r with head := .dotted e }
  | .opening .square => some (r.openBracket (.index e))
  | .operator op =>
    let (left, waiting) := Pending.settle op.readingLevel r.pending e
    some ⟨r.outer, .binary op left :: waiting, .missing⟩
  | .range inclusive =>
    match Pending.settle 1 r.pending e with
    | (first, []) => some ⟨r.outer, [.range first inclusive], .missing⟩
    | _ => none
  | .comma => r.nextArgument e
  | .closing b => r.closeAfter b e
  | _ => none

/-- Takes one more token, or refuses it. -/
def feed (r : Reading) (lexeme : Lexeme) : Option Reading :=
  match r.head, lexeme with
  | .missing, _ => r.feedMissing lexeme
  | .path segments, .pathSeparator => some { r with head := .pathOpen segments }
  | .path segments, .opening .round => some (r.openBracket (.arguments (.function segments) []))
  | .path segments, _ => r.feedAfter (.path segments) lexeme
  | .pathOpen segments, .name n => some { r with head := .path (segments ++ [n]) }
  | .pathOpen _, _ => none
  | .operand e, _ => r.feedAfter e lexeme
  | .dotted receiver, .name n => some { r with head := .member receiver n }
  | .dotted _, _ => none
  | .member receiver name, .opening .round =>
    some (r.openBracket (.arguments (.method receiver name) []))
  | .member receiver name, _ => r.feedAfter (.field receiver name) lexeme

/-- Takes tokens up to the first that is refused. -/
def feedAll (r : Reading) : List Token → Except Failure Reading
  | [] => .ok r
  | token :: rest =>
    match r.feed token.lexeme with
    | some next => next.feedAll rest
    | none => .error (.unexpectedToken token)

/-- The expression that has been read, if it is complete. -/
def finish (r : Reading) : Option Expr :=
  match r.outer, r.head.toExpr? with
  | [], some e => some (Pending.settle 0 r.pending e).1
  | _, _ => none

end Reading

namespace Expr

/-- Reads an expression. A token that no expression goes on with is reported before a place further on
where no word can be read. -/
def read (text : String) : Except Failure Expr :=
  let scan := Scan.scan 1 text
  match Reading.start.feedAll scan.tokens with
  | .error failure => .error failure
  | .ok reading =>
    match scan.failure? with
    | some failure => .error failure
    | none =>
      match reading.finish with
      | some e => .ok e
      | none => .error .unexpectedEnd

end Expr

end NamedExpr
