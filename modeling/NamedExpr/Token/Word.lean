import NamedExpr.Failure
import NamedExpr.Text.Identifier
/-!
# Words

Reading one word at the start of a text: a number, a quoted text, a name or a symbol. Every reader takes
the longest spelling there is and gives it back together with its meaning.
-/

namespace NamedExpr

-- Powers are those of the core library, also beside modules that bring others.
attribute [local instance (high)] instPowNat

namespace Word

open Text

/-- The suffixes that name a type of integers. -/
def integerSuffixes : List (List Char) :=
  ["i8", "i16", "i32", "i64", "isize", "u8", "u16", "u32", "u64", "usize"].map String.toList

/-- The suffixes that name a type of floats. -/
def floatSuffixes : List (List Char) := ["f32", "f64"].map String.toList

/-- The one of some suffixes that a text starts with. -/
def suffixAmong (suffixes : List (List Char)) (cs : List Char) : Option (List Char) :=
  suffixes.find? fun suffix => suffix.isPrefixOf cs

/-- A number. A fraction, an exponent or the suffix of a float makes it a float. The digits of an integer are counted
before its size is looked at. -/
def readNumber (position : Nat) (cs : List Char) : Except Failure (Lexeme × List Char) :=
  let whole := cs.takeWhile isDigitOrGap
  let afterWhole := cs.drop whole.length
  let fraction := fractionPart afterWhole
  let afterFraction := afterWhole.drop fraction.length
  let exponent := exponentPart afterFraction
  let afterExponent := afterFraction.drop exponent.length
  let float (suffix : List Char) : Except Failure (Lexeme × List Char) :=
    .ok (.float (decimal whole fraction exponent).toFloat, whole ++ fraction ++ exponent ++ suffix)
  match suffixAmong floatSuffixes afterExponent with
  | some suffix => float suffix
  | none =>
    if fraction.isEmpty && exponent.isEmpty then
      let spelling := whole ++ (suffixAmong integerSuffixes afterExponent).getD []
      let value := digitsValue whole
      if maxDigits < digitCount whole then .error (.tooManyDigits (digitCount whole) position)
      else if value < 2 ^ (63 : Nat) then .ok (.integer value, spelling)
      else .error (.integerTooLarge spelling position)
    else float []

/-- What stands before the closing quote of a text, escapes as they are written. A backslash at the end of
a line belongs to no text. -/
def textBody : List Char → Option (List Char)
  | [] => none
  | '"' :: _ => some []
  | '\\' :: '\n' :: _ => none
  | '\\' :: c :: rest => (textBody rest).map fun body => '\\' :: c :: body
  | ['\\'] => none
  | c :: rest => (textBody rest).map (c :: ·)

/-- The character that an escape stands for. -/
def escapeValue? : Char → Option Char
  | 'n' => some '\n'
  | 't' => some '\t'
  | 'r' => some '\r'
  | '0' => some '\x00'
  | '\\' => some '\\'
  | '"' => some '"'
  | '\'' => some '\''
  | _ => none

/-- Resolves the escapes of a text that stands at `position`. -/
def unescape (position : Nat) : List Char → Except Failure (List Char)
  | '\\' :: c :: rest =>
    match escapeValue? c with
    | none => .error (.unknownEscape c position)
    | some value => (unescape position rest).map (value :: ·)
  | ['\\'] => .error (.danglingEscape position)
  | c :: rest => (unescape position rest).map (c :: ·)
  | [] => .ok []

/-- A text whose opening quote is read already. -/
def readText (position : Nat) (rest : List Char) : Except Failure (Lexeme × List Char) :=
  match textBody rest with
  | none => .error (.illegalCharacter '"' position)
  | some body =>
    (unescape position body).map fun content => (.text (String.ofList content), '"' :: (body ++ ['"']))

/-- The meaning of a name; three names are literals. -/
def nameLexeme (spelling : List Char) : Lexeme :=
  if spelling = ['t', 'r', 'u', 'e'] then .boolean true
  else if spelling = ['f', 'a', 'l', 's', 'e'] then .boolean false
  else if spelling = ['N', 'o', 'n', 'e'] then .none
  else .name (String.ofList spelling)

/-- The symbol at the start of a text. -/
def symbol? : List Char → Option (Lexeme × List Char)
  | '.' :: '.' :: '=' :: _ => some (.range true, ['.', '.', '='])
  | '.' :: '.' :: _ => some (.range false, ['.', '.'])
  | '.' :: _ => some (.dot, ['.'])
  | ':' :: ':' :: _ => some (.pathSeparator, [':', ':'])
  | ',' :: _ => some (.comma, [','])
  | '(' :: _ => some (.opening .round, ['('])
  | ')' :: _ => some (.closing .round, [')'])
  | '[' :: _ => some (.opening .square, ['['])
  | ']' :: _ => some (.closing .square, [']'])
  | '+' :: _ => some (.operator .add, ['+'])
  | '-' :: _ => some (.operator .sub, ['-'])
  | '*' :: _ => some (.operator .mul, ['*'])
  | '/' :: _ => some (.operator .div, ['/'])
  | '%' :: _ => some (.operator .rem, ['%'])
  | '=' :: '=' :: _ => some (.operator .eq, ['=', '='])
  | '!' :: '=' :: _ => some (.operator .ne, ['!', '='])
  | '!' :: _ => some (.bang, ['!'])
  | '<' :: '=' :: _ => some (.operator .le, ['<', '='])
  | '<' :: _ => some (.operator .lt, ['<'])
  | '>' :: '=' :: _ => some (.operator .ge, ['>', '='])
  | '>' :: _ => some (.operator .gt, ['>'])
  | '&' :: '&' :: _ => some (.operator .and, ['&', '&'])
  | '&' :: _ => some (.ampersand, ['&'])
  | '|' :: '|' :: _ => some (.operator .or, ['|', '|'])
  | _ => none

/-- The word at the start of the text `c :: rest`, which stands at `position`: its meaning and spelling. -/
def read (position : Nat) (c : Char) (rest : List Char) : Except Failure (Lexeme × List Char) :=
  if isDigit c then readNumber position (c :: rest)
  else if c = '"' then readText position rest
  else if startsName c then
    let spelling := c :: rest.takeWhile continuesName
    .ok (nameLexeme spelling, spelling)
  else
    match symbol? (c :: rest) with
    | some word => .ok word
    | none => .error (.illegalCharacter c position)

end Word

end NamedExpr
