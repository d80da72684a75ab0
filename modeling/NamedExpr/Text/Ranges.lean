/-!
# Sets of code points

A set of code points is given by its switch points: in ascending order, the code points at which
membership changes, starting from "not a member".
-/

namespace NamedExpr

namespace Text

/-- Whether the set with these switch points has the code point `n`. -/
def within : List Nat → Nat → Bool
  | [], _ => false
  | point :: rest, n => if n < point then false else !within rest n

end Text

end NamedExpr
