/-!
# Cutting a text in two
-/

namespace NamedExpr

namespace Text

/-- What stands before and after the first `mark` of a text; a text without one is all before. -/
def cut (mark : Char) (cs : List Char) : List Char × Option (List Char) :=
  match cs.dropWhile (· ≠ mark) with
  | [] => (cs, none)
  | _ :: rest => (cs.takeWhile (· ≠ mark), some rest)

end Text

end NamedExpr
