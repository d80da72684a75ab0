import NamedExpr.Token.Word
/-!
# Scanning a text

A text is cut into words from the left. `Scan` holds the tokens before the first place where no word can
be read, and what is wrong there. Lines are counted on through several texts; positions start anew.
-/

namespace NamedExpr

/-- The result of scanning a text: the tokens, the failure that ended them if there was one, and the
number of the line that was reached. -/
structure Scan where
  tokens : List Token
  failure? : Option Failure
  line : Nat

namespace Scan

/-- The scan of a text with one more token in front. -/
def cons (token : Token) (s : Scan) : Scan := { s with tokens := token :: s.tokens }

/-- Whether a character may stand between words without ending a line. -/
def isSpace (c : Char) : Bool := c == ' ' || c == '\t' || c == '\r'

/-- Scans the characters from `position` on, which stands in line `line`. The first `covered` of them
belong to a word that is read already. -/
def scanFrom (line position : Nat) : Nat → List Char → Scan
  | _, [] => ⟨[], none, line⟩
  | covered + 1, _ :: rest => scanFrom line (position + 1) covered rest
  | 0, c :: rest =>
    if isSpace c then scanFrom line (position + 1) 0 rest
    else if c = '\n' then scanFrom (line + 1) (position + 1) 0 rest
    else
      match Word.read position c rest with
      | .error failure => ⟨[], some failure, line⟩
      | .ok (lexeme, spelling) =>
        cons ⟨lexeme, spelling, position, line⟩ (scanFrom line (position + 1) (spelling.length - 1) rest)

/-- Scans a text whose first line has the number `line`. -/
def scan (line : Nat) (text : String) : Scan := scanFrom line 0 0 text.toList

/-- Scans texts one after the other, each from the line that the one before reached. -/
def scanAll (line : Nat) : List String → List Scan
  | [] => []
  | text :: rest =>
    let first := scan line text
    first :: scanAll first.line rest

/-- The tokens of a text that was scanned to its end. -/
def toTokens (s : Scan) : Except Failure (List Token) :=
  match s.failure? with
  | some failure => .error failure
  | none => .ok s.tokens

end Scan

end NamedExpr
