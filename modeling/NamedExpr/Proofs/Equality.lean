import NamedExpr.Proofs.Operations
import NamedExpr.Proofs.Pattern
import NamedExpr.Proofs.WellFormedValues
/-!
# Equality of values

Equality of values is identity of what is left of them when zeros have lost their sign, for values that hold nothing
that is no number (`Value.equal_iff`). For numbers this is read off their patterns (`Binary64.beq_iff`), for vectors it
goes through the elements. That equality is a partial equivalence within each variant follows, and so does that equal
values have one hash (`Hashing.hash_of_equal`). A set therefore takes an object for itself and for those of equal values
(`Value.isTakenFor_iff`): of a row of objects it keeps one of every class of equality, and each whose value equals
nothing (`Value.length_keptObjects`).
-/

namespace NamedExpr

/-! ## Numbers -/

namespace Binary64

open Float.Model Float.Model.UnpackedFloat

/-- A number of which a zero has lost its sign. -/
def dropZeroSign (x : Float) : Float := if x.toBits = (-0.0 : Float).toBits then 0.0 else x

/-- The same for a number that is taken apart. -/
def unpackedDropZeroSign : UnpackedFloat → UnpackedFloat
  | .zero _ => .zero .positive
  | u => u

theorem compare_eq_iff (a b : UnpackedFloat) :
    a.compare b = some .eq
      ↔ UnpackedFloat.isNaN a = false ∧ unpackedDropZeroSign a = unpackedDropZeroSign b := by
  cases a with
  | notANumber => simp [UnpackedFloat.compare, UnpackedFloat.isNaN]
  | infinity s =>
    cases b with
    | infinity t =>
      cases s <;> cases t <;> simp [UnpackedFloat.compare, UnpackedFloat.isNaN, unpackedDropZeroSign] <;> decide
    | notANumber | zero | finite =>
      cases s <;> simp [UnpackedFloat.compare, UnpackedFloat.isNaN, unpackedDropZeroSign]
  | zero s =>
    cases b with
    | infinity t | finite t =>
      cases t <;> simp [UnpackedFloat.compare, UnpackedFloat.isNaN, unpackedDropZeroSign]
    | notANumber | zero => simp [UnpackedFloat.compare, UnpackedFloat.isNaN, unpackedDropZeroSign]
  | finite s =>
    cases b with
    | finite t =>
      -- magnitudes are compared by their exponents first
      cases s <;> cases t <;>
        simp [UnpackedFloat.compare, UnpackedFloat.isNaN, unpackedDropZeroSign, Ordering.then_eq_eq, and_comm]
    | infinity t => cases t <;> cases s <;> simp [UnpackedFloat.compare, UnpackedFloat.isNaN, unpackedDropZeroSign]
    | notANumber | zero => cases s <;> simp [UnpackedFloat.compare, UnpackedFloat.isNaN, unpackedDropZeroSign]

theorem unpack_dropZeroSign (x : Float) :
    (dropZeroSign x).toModel.unpack = unpackedDropZeroSign x.toModel.unpack := by
  unfold dropZeroSign
  split
  · rename_i negative
    obtain rfl := toBits_injective negative
    rfl
  · rename_i other
    cases unpacked : x.toModel.unpack with
    | zero sign =>
      cases sign with
      | positive => rfl
      | negative => exact absurd (congrArg Float.toBits (unpack_injective (y := -0.0) unpacked)) other
    | infinity | notANumber | finite => rfl

/-- Two numbers are equal if they are the same up to the sign of a zero, and are numbers. -/
theorem beq_iff {x y : Float} : (x == y) = true ↔ x.isNaN = false ∧ dropZeroSign x = dropZeroSign y := by
  have unpacked : dropZeroSign x = dropZeroSign y
      ↔ unpackedDropZeroSign x.toModel.unpack = unpackedDropZeroSign y.toModel.unpack := by
    rw [← unpack_dropZeroSign, ← unpack_dropZeroSign]
    exact ⟨fun same => by rw [same], unpack_injective⟩
  rw [unpacked]
  show (x.toModel.unpack.compare y.toModel.unpack == some .eq) = true
    ↔ UnpackedFloat.isNaN x.toModel.unpack = false ∧ _
  rw [beq_iff_eq, compare_eq_iff]

theorem isNaN_dropZeroSign (x : Float) : (dropZeroSign x).isNaN = x.isNaN := by
  show UnpackedFloat.isNaN (dropZeroSign x).toModel.unpack = UnpackedFloat.isNaN x.toModel.unpack
  rw [unpack_dropZeroSign]
  cases x.toModel.unpack <;> rfl

end Binary64

/-! ## Values -/

namespace Value

mutual

/-- Whether what is no number is in a value, at any depth. -/
def holdsNaN : Value → Bool
  | .float x => x.isNaN
  | .vec items => anyHoldsNaN items
  | _ => false

/-- Whether what is no number is in a value of a row. -/
def anyHoldsNaN : List Value → Bool
  | [] => false
  | item :: rest => holdsNaN item || anyHoldsNaN rest

end

mutual

/-- A value of which the zeros, at any depth, have lost their sign. -/
def dropZeroSigns : Value → Value
  | .float x => .float (Binary64.dropZeroSign x)
  | .vec items => .vec (dropAllZeroSigns items)
  | v => v

/-- A row of values of which the zeros have lost their sign. -/
def dropAllZeroSigns : List Value → List Value
  | [] => []
  | item :: rest => dropZeroSigns item :: dropAllZeroSigns rest

end

mutual

/-- Two values are equal if they are the same up to the signs of zeros, and hold nothing that is no number. -/
theorem equal_iff (a b : Value) :
    a.equal b = true ↔ a.holdsNaN = false ∧ a.dropZeroSigns = b.dropZeroSigns := by
  cases a with
  | float x =>
    cases b with
    | float y => simpa [equal, holdsNaN, dropZeroSigns] using Binary64.beq_iff
    | bool | int | str | vec | range | none => simp [equal, dropZeroSigns]
  | vec as =>
    cases b with
    | vec bs => simpa [equal, holdsNaN, dropZeroSigns] using equalAll_iff as bs
    | bool | int | float | str | range | none => simp [equal, dropZeroSigns]
  | bool | int | str | range | none => cases b <;> simp [equal, holdsNaN, dropZeroSigns]

theorem equalAll_iff (as bs : List Value) :
    equalAll as bs = true ↔ anyHoldsNaN as = false ∧ dropAllZeroSigns as = dropAllZeroSigns bs := by
  cases as with
  | nil => cases bs <;> simp [equalAll, anyHoldsNaN, dropAllZeroSigns]
  | cons a as =>
    cases bs with
    | nil => simp [equalAll, dropAllZeroSigns]
    | cons b bs =>
      simp only [equalAll, anyHoldsNaN, dropAllZeroSigns, Bool.and_eq_true, Bool.or_eq_false_iff, List.cons.injEq,
        equal_iff a b, equalAll_iff as bs]
      exact and_and_and_comm

end

mutual

theorem holdsNaN_dropZeroSigns (v : Value) : v.dropZeroSigns.holdsNaN = v.holdsNaN := by
  cases v with
  | float x => exact Binary64.isNaN_dropZeroSign x
  | vec items => exact anyHoldsNaN_dropAllZeroSigns items
  | bool | int | str | range | none => rfl

theorem anyHoldsNaN_dropAllZeroSigns (items : List Value) :
    anyHoldsNaN (dropAllZeroSigns items) = anyHoldsNaN items := by
  cases items with
  | nil => rfl
  | cons item rest =>
    rw [dropAllZeroSigns, anyHoldsNaN, anyHoldsNaN, holdsNaN_dropZeroSigns item, anyHoldsNaN_dropAllZeroSigns rest]

end

theorem variant_dropZeroSigns (v : Value) : v.dropZeroSigns.variant = v.variant := by
  cases v <;> rfl

mutual

theorem exists_inside_of_holdsNaN {v : Value} (holds : v.holdsNaN = true) :
    ∃ x : Float, (Value.float x).Inside v ∧ x.isNaN = true := by
  cases v with
  | float x => exact ⟨x, .refl, holds⟩
  | vec items =>
    obtain ⟨item, member, x, inside, nan⟩ := exists_mem_of_anyHoldsNaN holds
    exact ⟨x, .element member inside, nan⟩
  | bool | int | str | range | none => cases holds

theorem exists_mem_of_anyHoldsNaN {items : List Value} (holds : anyHoldsNaN items = true) :
    ∃ item ∈ items, ∃ x : Float, (Value.float x).Inside item ∧ x.isNaN = true := by
  cases items with
  | nil => cases holds
  | cons item rest =>
    rw [anyHoldsNaN, Bool.or_eq_true] at holds
    obtain inFirst | inRest := holds
    · exact ⟨item, List.mem_cons_self, exists_inside_of_holdsNaN inFirst⟩
    · obtain ⟨item', member, nan⟩ := exists_mem_of_anyHoldsNaN inRest
      exact ⟨item', List.mem_cons_of_mem _ member, nan⟩

end

theorem anyHoldsNaN_of_mem {item : Value} {items : List Value} (member : item ∈ items) (holds : item.holdsNaN = true) :
    anyHoldsNaN items = true := by
  induction member with
  | head => rw [anyHoldsNaN, holds, Bool.true_or]
  | tail _ _ ih => rw [anyHoldsNaN, ih, Bool.or_true]

/-- A value holds what is no number if that is inside of it. -/
theorem holdsNaN_iff {v : Value} : v.holdsNaN = true ↔ ∃ x : Float, (Value.float x).Inside v ∧ x.isNaN = true := by
  refine ⟨exists_inside_of_holdsNaN, ?_⟩
  rintro ⟨x, inside, nan⟩
  induction inside with
  | refl => exact nan
  | element member _ ih => exact anyHoldsNaN_of_mem member ih

theorem holdsNaN_eq_false_iff {v : Value} :
    v.holdsNaN = false ↔ ∀ x : Float, (Value.float x).Inside v → x.isNaN = false := by
  rw [← Bool.not_eq_true, holdsNaN_iff]
  simp only [not_exists, not_and, Bool.not_eq_true]

/-! ### Places -/

/-- The value at a place in another, which the indices to go through lead to. -/
def at? : Value → List Nat → Option Value
  | v, [] => some v
  | .vec items, index :: place =>
    match items[index]? with
    | some item => item.at? place
    | .none => .none
  | _, _ :: _ => .none

theorem dropAllZeroSigns_eq_map (items : List Value) : dropAllZeroSigns items = items.map dropZeroSigns := by
  induction items with
  | nil => rfl
  | cons item rest ih => rw [dropAllZeroSigns, ih, List.map_cons]

theorem at?_dropZeroSigns (v : Value) (place : List Nat) :
    v.dropZeroSigns.at? place = (v.at? place).map dropZeroSigns := by
  induction place generalizing v with
  | nil => rfl
  | cons index place ih =>
    cases v with
    | vec items =>
      simp only [dropZeroSigns, at?, dropAllZeroSigns_eq_map, List.getElem?_map]
      cases items[index]? with
      | none => rfl
      | some item => exact ih item
    | bool | int | float | str | range | none => rfl

/-- Equal values have the same variants at the same places. -/
theorem variant_at?_of_equal {a b : Value} (same : a.equal b = true) (place : List Nat) :
    (a.at? place).map variant = (b.at? place).map variant := by
  have dropped := congrArg (fun v => (v.at? place).map variant) (equal_iff a b |>.1 same).2
  simpa [at?_dropZeroSigns, Function.comp_def, variant_dropZeroSigns] using dropped

/-! ### Equivalence -/

theorem holdsNaN_of_equal {a b : Value} (same : a.equal b = true) : a.holdsNaN = false ∧ b.holdsNaN = false := by
  obtain ⟨number, dropped⟩ := (equal_iff a b).1 same
  refine ⟨number, ?_⟩
  rw [← holdsNaN_dropZeroSigns, ← dropped, holdsNaN_dropZeroSigns, number]

theorem equal_self_iff {v : Value} : v.equal v = true ↔ v.holdsNaN = false := by
  simp [equal_iff]

theorem equal_symm {a b : Value} (same : a.equal b = true) : b.equal a = true :=
  (equal_iff b a).2 ⟨(holdsNaN_of_equal same).2, ((equal_iff a b).1 same).2.symm⟩

theorem equal_trans {a b c : Value} (first : a.equal b = true) (second : b.equal c = true) : a.equal c = true :=
  (equal_iff a c).2 ⟨(holdsNaN_of_equal first).1, ((equal_iff a b).1 first).2.trans ((equal_iff b c).1 second).2⟩

/-- The class of a value: all that it is equal to. -/
def equalityClass (v : Value) : Set Value := {w | v.equal w = true}

theorem equalityClass_eq_iff {v w : Value} (number : v.holdsNaN = false) :
    v.equalityClass = w.equalityClass ↔ w.equal v = true := by
  constructor
  · intro same
    have inside : v ∈ v.equalityClass := equal_self_iff.2 number
    rwa [same] at inside
  · intro same
    ext u
    exact ⟨fun equal => equal_trans same equal, fun equal => equal_trans (equal_symm same) equal⟩

end Value

/-! ## Hashes -/

namespace Hashing

variable (h : Hashing)

/-- Zeros of either sign have one hash. -/
theorem ofParts_dropZeroSign (x : Float) :
    ofParts (Binary64.parts (Binary64.dropZeroSign x)) = ofParts (Binary64.parts x) := by
  unfold Binary64.dropZeroSign
  split
  · rename_i negative
    obtain rfl := Binary64.toBits_injective negative
    have zero : Binary64.parts 0.0 = .finite false 0 (-1074) := by decide
    have negated : Binary64.parts (-0.0) = .finite true 0 (-1074) := by decide
    rw [zero, negated]
    rfl
  · rfl

theorem exists_ofParts {x : Float} (number : x.isNaN = false) : ∃ n, ofParts (Binary64.parts x) = some n := by
  cases parts : Binary64.parts x with
  | notANumber =>
    rw [Binary64.isNaN_iff.2 parts] at number
    cases number
  | infinite | finite => exact ⟨_, rfl⟩

mutual

theorem hash_dropZeroSigns (object : Nat) (place : List Nat) (v : Value) :
    h.hash object place v.dropZeroSigns = h.hash object place v := by
  cases v with
  | float x => rw [Value.dropZeroSigns, hash, hash, ofParts_dropZeroSign]
  | vec items => rw [Value.dropZeroSigns, hash, hash, hashAll_dropAllZeroSigns object place 0 items]
  | bool | int | str | range | none => rfl

theorem hashAll_dropAllZeroSigns (object : Nat) (place : List Nat) (index : Nat) (items : List Value) :
    h.hashAll object place index (Value.dropAllZeroSigns items) = h.hashAll object place index items := by
  cases items with
  | nil => rfl
  | cons item rest =>
    rw [Value.dropAllZeroSigns, hashAll, hashAll, hash_dropZeroSigns object _ item,
      hashAll_dropAllZeroSigns object place _ rest]

end

mutual

/-- The hash of a value that holds nothing that is no number hangs on no object. -/
theorem hash_of_number {v : Value} (number : v.holdsNaN = false) (object object' : Nat) (place place' : List Nat) :
    h.hash object place v = h.hash object' place' v := by
  cases v with
  | float x =>
    obtain ⟨n, known⟩ := exists_ofParts number
    rw [hash, hash, known, Option.getD_some, Option.getD_some]
  | vec items => rw [hash, hash, hashAll_of_number number object object' place place' 0]
  | bool | int | str | range | none => rfl

theorem hashAll_of_number {items : List Value} (number : Value.anyHoldsNaN items = false) (object object' : Nat)
    (place place' : List Nat) (index : Nat) :
    h.hashAll object place index items = h.hashAll object' place' index items := by
  cases items with
  | nil => rfl
  | cons item rest =>
    rw [Value.anyHoldsNaN, Bool.or_eq_false_iff] at number
    rw [hashAll, hashAll, hash_of_number number.1 object object' _ (place' ++ [index]),
      hashAll_of_number number.2 object object' place place' _]

end

/-- Equal values have one hash, whatever objects they stand in. -/
theorem hash_of_equal {a b : Value} (same : a.equal b = true) (object object' : Nat) (place place' : List Nat) :
    h.hash object place a = h.hash object' place' b := by
  obtain ⟨number, dropped⟩ := (Value.equal_iff a b).1 same
  calc h.hash object place a
      = h.hash object' place' a := hash_of_number h number object object' place place'
    _ = h.hash object' place' a.dropZeroSigns := (hash_dropZeroSigns h object' place' a).symm
    _ = h.hash object' place' b := by rw [dropped, hash_dropZeroSigns]

end Hashing

namespace Value

/-! ### Sets -/

section

variable {h : Hashing} {store : Nat → Value}

/-- A set takes an object for itself and for those of equal values. -/
theorem isTakenFor_iff {kept object : Nat} :
    isTakenFor h store kept object = true ↔ kept = object ∨ (store kept).equal (store object) = true := by
  rw [isTakenFor, Bool.and_eq_true, Bool.or_eq_true, beq_iff_eq, beq_iff_eq]
  refine ⟨And.right, fun taken => ⟨?_, taken⟩⟩
  obtain rfl | same := taken
  · rfl
  · exact h.hash_of_equal same kept object [] []

theorem isTakenFor_trans {first second third : Nat} (left : isTakenFor h store first second = true)
    (right : isTakenFor h store second third = true) : isTakenFor h store first third = true := by
  rw [isTakenFor_iff] at *
  obtain rfl | same := left
  · exact right
  · obtain rfl | same' := right
    · exact .inr same
    · exact .inr (equal_trans same same')

theorem keptObjects_append_singleton (objects : List Nat) (object : Nat) :
    keptObjects h store (objects ++ [object])
      = if (keptObjects h store objects).any (isTakenFor h store · object) then keptObjects h store objects
        else keptObjects h store objects ++ [object] := by
  unfold keptObjects
  rw [List.foldl_append, List.foldl_cons, List.foldl_nil]

/-- An object is taken for one that is kept exactly if it is for one that was put in. -/
theorem any_keptObjects_iff (objects : List Nat) (object : Nat) :
    (keptObjects h store objects).any (isTakenFor h store · object) = true
      ↔ ∃ other ∈ objects, isTakenFor h store other object = true := by
  induction objects using List.reverseRecOn generalizing object with
  | nil => simp [keptObjects]
  | append_singleton objects last ih =>
    have inRow : (∃ other ∈ objects ++ [last], isTakenFor h store other object = true)
        ↔ (keptObjects h store objects).any (isTakenFor h store · object) = true
          ∨ isTakenFor h store last object = true := by
      rw [ih]
      simp only [List.mem_append, List.mem_singleton, or_and_right, exists_or, exists_eq_left]
    rw [inRow, keptObjects_append_singleton]
    split
    · rename_i kept
      refine ⟨.inl, fun inside => inside.elim id fun taken => ?_⟩
      -- what was kept in place of the last object is taken for all that this is taken for
      obtain ⟨other, member, before⟩ := (ih last).1 kept
      exact (ih object).2 ⟨other, member, isTakenFor_trans before taken⟩
    · rw [List.any_append, Bool.or_eq_true]
      simp only [List.any_cons, List.any_nil, Bool.or_false]

end

/-! What the members of a row with some property come to, when one more is put at its end. -/

section

variable {α : Type} {p : α → Prop} {last : α}

theorem setOf_append_of (row : List α) (has : p last) :
    {x | x ∈ row ++ [last] ∧ p x} = insert last {x | x ∈ row ∧ p x} := by
  ext x
  simp only [List.mem_append, List.mem_singleton, Set.mem_ofPred_eq, Set.mem_insert_iff]
  constructor
  · rintro ⟨old | new, property⟩
    · exact .inr ⟨old, property⟩
    · exact .inl new
  · rintro (rfl | ⟨old, property⟩)
    · exact ⟨.inr rfl, has⟩
    · exact ⟨.inl old, property⟩

theorem setOf_append_of_not (row : List α) (lacks : ¬p last) :
    {x | x ∈ row ++ [last] ∧ p x} = {x | x ∈ row ∧ p x} := by
  ext x
  simp only [List.mem_append, List.mem_singleton, Set.mem_ofPred_eq]
  refine ⟨fun ⟨member, property⟩ => ⟨member.resolve_right ?_, property⟩, fun ⟨old, property⟩ => ⟨.inl old, property⟩⟩
  rintro rfl
  exact lacks property

theorem setOf_mem_finite (row : List α) : {x | x ∈ row ∧ p x}.Finite :=
  row.finite_toSet.subset fun _ member => member.1

end

/-- The classes of the values of a row that hold nothing that is no number. -/
def equalityClasses (values : List Value) : Set (Set Value) :=
  equalityClass '' {v | v ∈ values ∧ v.holdsNaN = false}

theorem equalityClasses_finite (values : List Value) : (equalityClasses values).Finite :=
  (setOf_mem_finite values).image _

theorem equalityClasses_append_number (values : List Value) {v : Value} (number : v.holdsNaN = false) :
    equalityClasses (values ++ [v]) = insert v.equalityClass (equalityClasses values) := by
  rw [equalityClasses, setOf_append_of values number, Set.image_insert_eq, equalityClasses]

theorem equalityClasses_append_holdsNaN (values : List Value) {v : Value} (nan : v.holdsNaN = true) :
    equalityClasses (values ++ [v]) = equalityClasses values := by
  rw [equalityClasses, setOf_append_of_not values (by simp [nan]), equalityClasses]

/-- The class of a value is among those of a row if something that equals it is in the row. -/
theorem equalityClass_mem_iff {values : List Value} {v : Value} (number : v.holdsNaN = false) :
    v.equalityClass ∈ equalityClasses values ↔ ∃ w ∈ values, w.equal v = true := by
  constructor
  · rintro ⟨w, ⟨member, -⟩, same⟩
    exact ⟨w, member, (equalityClass_eq_iff number).1 same.symm⟩
  · rintro ⟨w, member, same⟩
    exact ⟨w, ⟨member, (holdsNaN_of_equal same).1⟩, ((equalityClass_eq_iff number).2 same).symm⟩

/-- The objects of a row whose values hold what is no number. -/
def objectsHoldingNaN (store : Nat → Value) (objects : List Nat) : Set Nat :=
  {object | object ∈ objects ∧ (store object).holdsNaN = true}

theorem objectsHoldingNaN_append {store : Nat → Value} (objects : List Nat) {object : Nat}
    (nan : (store object).holdsNaN = true) :
    objectsHoldingNaN store (objects ++ [object]) = insert object (objectsHoldingNaN store objects) :=
  setOf_append_of objects nan

theorem objectsHoldingNaN_append_number {store : Nat → Value} (objects : List Nat) {object : Nat}
    (number : (store object).holdsNaN = false) :
    objectsHoldingNaN store (objects ++ [object]) = objectsHoldingNaN store objects :=
  setOf_append_of_not objects (by simp [number])

/-- Of objects that are put in once each, all whose values hold what is no number count. -/
theorem ncard_objectsHoldingNaN {store : Nat → Value} {objects : List Nat} (once : objects.Nodup) :
    (objectsHoldingNaN store objects).ncard = (objects.map store).countP holdsNaN := by
  have chosen : objectsHoldingNaN store objects
      = ↑(objects.filter fun object => (store object).holdsNaN).toFinset := by
    ext object
    simp [objectsHoldingNaN]
  rw [chosen, Set.ncard_coe_finset, List.toFinset_card_of_nodup (once.filter _), List.countP_map,
    List.countP_eq_length_filter]
  rfl

section

variable (h : Hashing) (store : Nat → Value)

/-- A set keeps one object of every class, and every object whose value holds what is no number. -/
theorem length_keptObjects (objects : List Nat) :
    (keptObjects h store objects).length
      = (equalityClasses (objects.map store)).ncard + (objectsHoldingNaN store objects).ncard := by
  induction objects using List.reverseRecOn with
  | nil => simp [keptObjects, equalityClasses, objectsHoldingNaN]
  | append_singleton objects object ih =>
    rw [keptObjects_append_singleton, List.map_append, List.map_singleton]
    have known : (keptObjects h store objects).any (isTakenFor h store · object) = true ↔ _ :=
      any_keptObjects_iff objects object
    simp only [isTakenFor_iff, and_or_left, exists_or, exists_eq_right] at known
    cases number : (store object).holdsNaN with
    | true =>
      -- nothing equals its value, so it is taken for nothing but itself
      have alone : ¬∃ other ∈ objects, (store other).equal (store object) = true := by
        rintro ⟨other, -, same⟩
        rw [(holdsNaN_of_equal same).2] at number
        cases number
      rw [or_iff_left alone] at known
      rw [equalityClasses_append_holdsNaN _ number, objectsHoldingNaN_append objects number]
      split
      · rename_i kept
        have again : object ∈ objectsHoldingNaN store objects := ⟨known.1 kept, number⟩
        rw [Set.insert_eq_of_mem again, ih]
      · rename_i new
        have fresh : object ∉ objectsHoldingNaN store objects := fun member => new (known.2 member.1)
        rw [Set.ncard_insert_of_notMem fresh (setOf_mem_finite objects), List.length_append, ih,
          List.length_singleton, Nat.add_assoc]
    | false =>
      -- it is taken for itself only where its class is known
      have before : (keptObjects h store objects).any (isTakenFor h store · object) = true
          ↔ (store object).equalityClass ∈ equalityClasses (objects.map store) := by
        rw [known, equalityClass_mem_iff number]
        simp only [List.mem_map, exists_exists_and_eq_and]
        refine or_iff_right_of_imp fun member => ⟨object, member, equal_self_iff.2 number⟩
      rw [equalityClasses_append_number _ number, objectsHoldingNaN_append_number objects number]
      split
      · rename_i kept
        rw [Set.insert_eq_of_mem (before.1 kept), ih]
      · rename_i new
        rw [Set.ncard_insert_of_notMem (mt before.2 new) (equalityClasses_finite _), List.length_append, ih,
          List.length_singleton]
        omega

/-- How many objects a set keeps does not depend on the order in which they are put in. -/
theorem length_keptObjects_of_perm {objects objects' : List Nat} (perm : objects.Perm objects') :
    (keptObjects h store objects').length = (keptObjects h store objects).length := by
  have classes : equalityClasses (objects'.map store) = equalityClasses (objects.map store) := by
    simp only [equalityClasses, (perm.map store).mem_iff]
  have nans : objectsHoldingNaN store objects' = objectsHoldingNaN store objects := by
    simp only [objectsHoldingNaN, perm.mem_iff]
  rw [length_keptObjects, length_keptObjects, classes, nans]

end

/-- Of values that are objects of their own, a set keeps one of every class, and all that hold what is no number. -/
theorem length_distinct (values : List Value) (h : Hashing) :
    (distinct values h).length = (equalityClasses values).ncard + values.countP holdsNaN := by
  have row : (List.range values.length).map (fun object => values.getD object .none) = values := by
    refine List.ext_getElem (by simp) fun index short short' => ?_
    simp [List.getD_eq_getElem?_getD, short']
  rw [distinct, List.length_map, length_keptObjects, ncard_objectsHoldingNaN List.nodup_range, row]

/-- Equality of values is symmetric and transitive, and a value equals itself exactly if nothing inside of it is no
number. Equal values have one variant, and so have the values at one place in them. Values are equal exactly if they
differ in no more than the signs of zeros and nothing inside of them is no number. Where the operators of equality are
permitted they give this relation and its negation. Equal values have one hash, whatever objects they stand in. So of a
row of objects, in whatever order they come, a set keeps one of every class of equality and each whose value holds what
is no number, where an object that comes again counts once; values that are objects of their own count each. -/
theorem equal_coherent :
    (∀ a b : Value, a.equal b = b.equal a)
      ∧ (∀ a b c : Value, a.equal b = true → b.equal c = true → a.equal c = true)
      ∧ (∀ v : Value, v.equal v = true ↔ ∀ x : Float, (Value.float x).Inside v → x.isNaN = false)
      ∧ (∀ a b : Value, a.equal b = true →
        a.isSame b = true ∧ ∀ place, (a.at? place).map variant = (b.at? place).map variant)
      ∧ (∀ a b : Value, a.equal b = true
        ↔ (∀ x : Float, (Value.float x).Inside a → x.isNaN = false) ∧ a.dropZeroSigns = b.dropZeroSigns)
      ∧ (∀ a b : Value,
        (Operator.eq.permits a.variant b.variant = true → Operator.eq.apply a b = .ok (.bool (a.equal b)))
          ∧ (Operator.ne.permits a.variant b.variant = true → Operator.ne.apply a b = .ok (.bool (!a.equal b))))
      ∧ (∀ (h : Hashing) (a b : Value), a.equal b = true →
        ∀ object object' place place', h.hash object place a = h.hash object' place' b)
      ∧ (∀ (h : Hashing) (store : Nat → Value) (objects : List Nat),
        (keptObjects h store objects).length
            = (equalityClasses (objects.map store)).ncard + (objectsHoldingNaN store objects).ncard
          ∧ (objects.Nodup → (objectsHoldingNaN store objects).ncard = (objects.map store).countP holdsNaN)
          ∧ ∀ objects' : List Nat, objects.Perm objects' →
            (keptObjects h store objects').length = (keptObjects h store objects).length)
      ∧ ∀ (h : Hashing) (values : List Value),
        (distinct values h).length = (equalityClasses values).ncard + values.countP holdsNaN := by
  refine ⟨fun a b => Bool.eq_iff_iff.2 ⟨equal_symm, equal_symm⟩, fun a b c => equal_trans,
    fun v => equal_self_iff.trans holdsNaN_eq_false_iff, fun a b same => ⟨?_, variant_at?_of_equal same⟩,
    fun a b => ?_, fun a b => ⟨fun permitted => if_pos permitted, fun permitted => if_pos permitted⟩,
    fun h a b same => h.hash_of_equal same, fun h store objects => ⟨length_keptObjects h store objects,
      ncard_objectsHoldingNaN, fun objects' => length_keptObjects_of_perm h store⟩,
    fun h values => length_distinct values h⟩
  · have whole := variant_at?_of_equal same []
    exact beq_iff_eq.2 (Option.some.inj whole)
  · rw [equal_iff, holdsNaN_eq_false_iff]

/-- Zeros of either sign are equal inside of vectors; of the six values a set keeps five, and no more if what is no
number is put in again, or all of it from the back. -/
theorem equal_coherent_zeros :
    let zero : Value := .vec [.float 0.0, .vec [.float (-0.0)]]
    let negated : Value := .vec [.float (-0.0), .vec [.float 0.0]]
    let values : List Value := [zero, .vec [.float (0.0 / 0.0)], negated, .vec [.float (0.0 / 0.0)], .int 1, .float 1.0]
    let store := fun object => values.getD object .none
    Operator.eq.apply zero negated = .ok (.bool true) ∧ (zero.at? [1, 0]).map variant = (negated.at? [1, 0]).map variant
      ∧ Hashing.positional.hash 0 [] zero = Hashing.positional.hash 2 [] negated ∧ (distinct values).length = 5
      ∧ (keptObjects .positional store [0, 1, 2, 3, 1, 4, 5]).length = 5
      ∧ (keptObjects .positional store [5, 4, 1, 3, 2, 1, 0]).length = 5 := by
  intro zero negated values store
  obtain ⟨-, -, -, sameVariants, -, operators, hashes, sets, -⟩ := equal_coherent
  have same : zero.equal negated = true := rfl
  have five : (keptObjects .positional store [0, 1, 2, 3, 1, 4, 5]).length = 5 := rfl
  obtain ⟨-, -, anyOrder⟩ := sets .positional store [0, 1, 2, 3, 1, 4, 5]
  refine ⟨?_, (sameVariants zero negated same).2 [1, 0], hashes .positional _ _ same _ _ _ _, ?_, five, ?_⟩
  · rw [(operators zero negated).1 rfl, same]
  · rfl
  · have back : List.Perm [0, 1, 2, 3, 1, 4, 5] [5, 4, 1, 3, 2, 1, 0] := (List.reverse_perm _).symm
    exact (anyOrder _ back).trans five

end Value

end NamedExpr
