import NamedExpr.Expr
import NamedExpr.Failure
/-!
# Writing expressions

The text of an expression. Brackets are written where the tree has them (`Expr.paren`) and nowhere else,
so a tree reads back as itself exactly if its operators are grouped the way reading groups them.
-/

namespace NamedExpr

namespace Literal

/-- A character inside the quotes of a text literal. -/
def escaped (c : Char) : List Char :=
  if c = '\\' then ['\\', '\\']
  else if c = '"' then ['\\', '"']
  else if c = '\n' then ['\\', 'n']
  else if c = '\t' then ['\\', 't']
  else if c = '\r' then ['\\', 'r']
  else [c]

/-- The text of a literal. Infinity has no name of its own; a number too large to be finite reads as it. -/
def write : Literal → String
  | .none => "None"
  | .bool true => "true"
  | .bool false => "false"
  | .int n => toString n
  | .float x =>
    match Binary64.parts x with
    | .infinite negative => if negative then "-1e400" else "1e400"
    | _ => Layout.literal.write x
  | .str s => "\"" ++ String.ofList (s.toList.flatMap escaped) ++ "\""
  | .unknown shown => shown

end Literal

namespace Expr

mutual

/-- The text of an expression. Two `&` in a row are kept apart, because together they are one symbol. -/
def write : Expr → String
  | .literal value => value.write
  | .path segments => pathName segments
  | .unary symbol operand => symbol ++ write operand
  | .reference operand =>
    let text := write operand
    if text.toList.head? = some '&' then "& " ++ text else "&" ++ text
  | .binary symbol left right => write left ++ " " ++ symbol ++ " " ++ write right
  | .methodCall receiver method args => write receiver ++ "." ++ method ++ "(" ++ writeAll args ++ ")"
  | .call function args => pathName function ++ "(" ++ writeAll args ++ ")"
  | .field receiver name => write receiver ++ "." ++ name
  | .array elements => "[" ++ writeAll elements ++ "]"
  | .index target place => write target ++ "[" ++ write place ++ "]"
  | .range start stop inclusive => write start ++ (if inclusive then "..=" else "..") ++ write stop
  | .paren inner => "(" ++ write inner ++ ")"
  | .foreign shown => shown

/-- The texts of a row of expressions, separated by commas. -/
def writeAll : List Expr → String
  | [] => ""
  | [e] => write e
  | e :: rest => write e ++ ", " ++ writeAll rest

end

mutual

/-- The first thing in a tree that is no expression; the arguments of a method come before its receiver. -/
def firstForeign? : Expr → Option String
  | .literal _ | .path _ => none
  | .unary _ e | .reference e | .field e _ | .paren e => firstForeign? e
  | .binary _ a b | .index a b | .range a b _ => (firstForeign? a).or (firstForeign? b)
  | .methodCall e _ args => (firstForeignOf? args).or (firstForeign? e)
  | .call _ args | .array args => firstForeignOf? args
  | .foreign shown => some shown

/-- The first thing in a row of trees that is no expression. -/
def firstForeignOf? : List Expr → Option String
  | [] => none
  | e :: rest => (firstForeign? e).or (firstForeignOf? rest)

end

/-- The text of an expression; a tree that holds something else has none. -/
def write? (e : Expr) : Except Failure String :=
  match e.firstForeign? with
  | some shown => .error (.notWritable shown)
  | none => .ok e.write

end Expr

end NamedExpr
