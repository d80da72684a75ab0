import NamedExpr.Decimal.Layout
/-!
# Values

What expressions evaluate to. Equality is exact in the variant (an integer never equals a float), follows
the numbers inside floats (`0.0` equals `-0.0`, and what is no number equals nothing), and goes through
vectors element by element.

A set holds objects, each of which stands for a value. It takes one object for another if they have one hash
and are the same object or have equal values: so what equals nothing is still found again. Numbers have
documented hashes; those of texts, and how hashes are put together, are a parameter (`Hashing`).
-/

namespace NamedExpr

-- Powers are those of the core library, also beside modules that bring others.
attribute [local instance (high)] instPowNat

/-- The seven kinds of values. -/
inductive Variant where
  | bool
  | int
  | float
  | str
  | vec
  | range
  | none
  deriving Repr, DecidableEq

namespace Variant

/-- The name of a variant in messages. -/
def name : Variant → String
  | .bool => "Bool"
  | .int => "Int"
  | .float => "Float"
  | .str => "Str"
  | .vec => "Vec"
  | .range => "Range"
  | .none => "NoneValue"

/-- Whether the variant is a number. -/
def isNumber : Variant → Bool
  | .int | .float => true
  | _ => false

end Variant

/-- A value. A range holds the integers from `start` up to but not including `stop`. -/
inductive Value where
  | bool (b : Bool)
  | int (n : Int)
  | float (x : Float)
  | str (s : String)
  | vec (items : List Value)
  | range (start stop : Int)
  | none
  deriving Inhabited

/-- A value, and whether it comes from syntax that makes an option. -/
structure Resolved where
  value : Value
  optional : Bool := false

/-- Whether an integer has 64 bits. -/
def fits64 (n : Int) : Bool := decide (-2 ^ (63 : Nat) ≤ n ∧ n < 2 ^ (63 : Nat))

theorem fits64_iff {n : Int} : fits64 n = true ↔ -2 ^ (63 : Nat) ≤ n ∧ n < 2 ^ (63 : Nat) := by simp [fits64]

namespace Value

/-- The variant of a value. -/
def variant : Value → Variant
  | .bool _ => .bool
  | .int _ => .int
  | .float _ => .float
  | .str _ => .str
  | .vec _ => .vec
  | .range .. => .range
  | .none => .none

/-- Whether two values have the same variant. -/
def isSame (a b : Value) : Bool := a.variant == b.variant

/-- Whether a value is the option without content. -/
def isNone : Value → Bool
  | .none => true
  | _ => false

mutual

/-- Whether two values are equal. -/
def equal : Value → Value → Bool
  | .bool a, .bool b => a == b
  | .int a, .int b => a == b
  | .float a, .float b => a == b
  | .str a, .str b => a == b
  | .vec a, .vec b => equalAll a b
  | .range a b, .range c d => a == c && b == d
  | .none, .none => true
  | _, _ => false

/-- Whether two rows of values have one length and are equal throughout. -/
def equalAll : List Value → List Value → Bool
  | [], [] => true
  | a :: as, b :: bs => equal a b && equalAll as bs
  | _, _ => false

end

mutual

/-- The canonical text of a value. Every element of a vector is followed by a comma, and texts stand in
quotes without escapes. -/
def render : Value → String
  | .bool true => "true"
  | .bool false => "false"
  | .int n => toString n
  | .float x => Layout.display x
  | .str s => "\"" ++ s ++ "\""
  | .vec items => "[" ++ renderAll items ++ "]"
  | .range start stop => toString start ++ ".." ++ toString stop
  | .none => "None"

/-- The texts of the elements of a vector, each followed by a comma. -/
def renderAll : List Value → String
  | [] => ""
  | item :: rest => render item ++ "," ++ renderAll rest

end

/-- The number of elements of a vector. -/
def length? : Value → Option Nat
  | .vec items => some items.length
  | _ => .none

end Value

/-! ## Hashes -/

/-- What hashes of values are made of, beside those of numbers. -/
structure Hashing where
  text : String → Int
  /-- The hash of a row of which the parts have these hashes. -/
  row : List Int → Int
  /-- What stands for the variant in the hash of a float. -/
  float : Int
  /-- What stands for the variant in the hash of a vector. -/
  vec : Int
  /-- The hash of what is no number, which hangs on the object and on the place inside of it. -/
  notANumber : Nat → List Nat → Int

namespace Hashing

/-- The hashes of numbers are remainders by this prime. -/
def modulus : Nat := 2 ^ (61 : Nat) - 1

/-- The remainder of a magnitude under a sign. Minus one is no hash, and minus two stands for it. -/
def reduced (negative : Bool) (magnitude : Nat) : Int :=
  let rest : Int := (magnitude % modulus : Nat)
  let signed := if negative then -rest else rest
  if signed = -1 then -2 else signed

/-- The hash of an integer. -/
def ofInt (n : Int) : Int := reduced (decide (n < 0)) n.natAbs

/-- The hash of a float that is a number. Powers of two come round after 61, so a negative exponent counts as
the positive one that it comes round to. -/
def ofParts : Parts → Option Int
  | .notANumber => none
  | .infinite negative => some (if negative then -314159 else 314159)
  | .finite negative mantissa exponent =>
    some (reduced negative (mantissa * 2 ^ (exponent % 61).toNat))

mutual

/-- The hash of a value, which stands at a place inside of an object. -/
def hash (h : Hashing) (object : Nat) (place : List Nat) : Value → Int
  | .bool b => h.row [ofInt b.toInt]
  | .int n => h.row [ofInt n]
  | .float x => h.row [h.float, (ofParts (Binary64.parts x)).getD (h.notANumber object place)]
  | .str s => h.row [h.text s]
  | .vec items => h.row [h.vec, h.row (hashAll h object place 0 items)]
  | .range start stop => h.row [ofInt start, ofInt stop]
  | .none => h.row []

/-- The hashes of the elements of a vector at a place, from the one with this index on. -/
def hashAll (h : Hashing) (object : Nat) (place : List Nat) (index : Nat) : List Value → List Int
  | [] => []
  | item :: rest => hash h object (place ++ [index]) item :: hashAll h object place (index + 1) rest

end

/-- Texts and rows are hashed like numbers to a base. -/
def positional : Hashing where
  text s := s.foldl (fun n c => (31 * n + c.toNat) % modulus) 7
  row hashes := hashes.foldl (fun n hash => (1000003 * n + hash) % modulus) 3
  float := 1
  vec := 2
  notANumber object place := object + place.length

end Hashing

namespace Value

/-! ## Sets -/

variable (h : Hashing) (store : Nat → Value)

/-- Whether a set takes an object for one that it keeps. -/
def isTakenFor (kept object : Nat) : Bool :=
  h.hash kept [] (store kept) == h.hash object [] (store object)
    && (kept == object || (store kept).equal (store object))

/-- The objects that a set keeps of a row, put in from the left: each that it takes for none kept before. -/
def keptObjects (objects : List Nat) : List Nat :=
  objects.foldl (fun kept object => if kept.any (isTakenFor h store · object) then kept else kept ++ [object]) []

/-- The values that a set keeps of a row, of which each is an object of its own. -/
def distinct (values : List Value) (h : Hashing := .positional) : List Value :=
  let store object := values.getD object .none
  (keptObjects h store (List.range values.length)).map store

end Value

end NamedExpr
