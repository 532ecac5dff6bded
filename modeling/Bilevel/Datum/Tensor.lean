import Bilevel.Datum.Basic

/-!
# Bilevel.Datum.Tensor

Rectangular arrays of numbers, and how a value of any kind becomes one.

* `Shape` lists the lengths of the dimensions; a single number has none.
* `Datum.shape?` finds the shape of a value, `Datum.toTensor` its shape and its numbers in row-major
  order, `Datum.toScalar` a single number.
* A value without a shape is refused before any of its numbers is looked at; of the numbers the
  first that cannot be converted decides.
* `toTensor_vector` and `toTensor_matrix`: rows and tables of numbers are read as they are.
-/

namespace Bilevel

/-- Why a value is no array of numbers, or no number. -/
inductive ConversionFault where
  /-- No rectangular shape, or a text that is no numeral. -/
  | malformed
  /-- A value that is no number at all. -/
  | notNumeric
  /-- An integer beyond all numbers. -/
  | tooLarge
  deriving Repr, DecidableEq

/-- The lengths of the dimensions of an array. -/
abbrev Shape := List Nat

/-- A shape between round brackets; a single length has a comma behind it. -/
def Shape.text : Shape → String
  | [n] => "(" ++ toString n ++ ",)"
  | dims => "(" ++ ", ".intercalate (dims.map toString) ++ ")"

/-- A rectangular array, its entries in row-major order. -/
structure Tensor (α : Type) where
  shape : Shape
  entries : List α

namespace Datum

variable {α : Type}

/-- The largest number of dimensions of an array. -/
def maxDims : Nat := 64

mutual

/-- The shape of a value that is rectangular. -/
def shape? : Datum α → Option Shape
  | .list [] => some [0]
  | .list (d :: rest) =>
    match d.shape? with
    | some s => if allShaped s rest then some ((rest.length + 1) :: s) else none
    | none => none
  | _ => some []

/-- Whether all values have the shape `s`. -/
def allShaped (s : Shape) : List (Datum α) → Bool
  | [] => true
  | d :: rest => d.shape? == some s && allShaped s rest

end

theorem allShaped_iff (s : Shape) (ds : List (Datum α)) :
    allShaped s ds = true ↔ ∀ d ∈ ds, d.shape? = some s := by
  induction ds with
  | nil => simp [allShaped]
  | cons d ds ih => simp [allShaped, ih]

mutual

/-- What stands in a value outside of its lists, from left to right. -/
def leaves : Datum α → List (Datum α)
  | .list items => leavesOf items
  | d => [d]

def leavesOf : List (Datum α) → List (Datum α)
  | [] => []
  | d :: rest => d.leaves ++ leavesOf rest

end

theorem leavesOf_eq_flatMap (ds : List (Datum α)) : leavesOf ds = ds.flatMap leaves := by
  induction ds with
  | nil => rfl
  | cons d ds ih => simp [leavesOf, ih]

theorem shape?_vector (xs : List α) : (vector xs).shape? = some [xs.length] := by
  cases xs with
  | nil => simp [vector, shape?]
  | cons x xs =>
    have h : allShaped [] (xs.map (Datum.real (α := α))) = true := by
      simp [allShaped_iff, shape?]
    simp [vector, shape?, h]

theorem leaves_vector (xs : List α) : (vector xs).leaves = xs.map .real := by
  simp only [vector, leaves, leavesOf_eq_flatMap, List.flatMap_map]
  induction xs with
  | nil => rfl
  | cons x xs ih => simp [ih]

theorem shape?_matrix (r : List α) (rs : List (List α)) (h : ∀ r' ∈ rs, r'.length = r.length) :
    (matrix (r :: rs)).shape? = some [rs.length + 1, r.length] := by
  have hs : allShaped [r.length] (rs.map vector) = true := by
    rw [allShaped_iff]
    intro d hd
    obtain ⟨r', hr', rfl⟩ := List.mem_map.1 hd
    rw [shape?_vector, h r' hr']
  simp [matrix, shape?, shape?_vector, hs]

theorem leaves_matrix (rows : List (List α)) : (matrix rows).leaves = rows.flatten.map .real := by
  simp only [matrix, leaves, leavesOf_eq_flatMap]
  induction rows with
  | nil => rfl
  | cons r rows ih => simp [ih, leaves_vector]

variable [Scalar α]

/-- A single number. Nothing stands for the undefined number, yes and no for one and zero, and a
text for the number that it names. -/
def toScalar : Datum α → Except ConversionFault α
  | .null => .ok Scalar.undefined
  | .bool b => .ok (if b then Scalar.one else Scalar.zero)
  | .int n =>
    match Scalar.ofInt? n with
    | some x => .ok x
    | none => .error .tooLarge
  | .real x => .ok x
  | .text s =>
    match Numeral.ofText? s with
    | some n => .ok (Scalar.ofNumeral n)
    | none => .error .malformed
  | .list _ => .error .malformed
  | .object _ => .error .notNumeric

/-- A rectangular array of numbers. -/
def toTensor (d : Datum α) : Except ConversionFault (Tensor α) :=
  match d.shape? with
  | none => .error .malformed
  | some shape =>
    if maxDims < shape.length then .error .malformed
    else do return ⟨shape, ← d.leaves.mapM toScalar⟩

theorem mapM_toScalar_real (xs : List α) :
    (xs.map (Datum.real (α := α))).mapM toScalar = .ok xs := by
  induction xs with
  | nil => rfl
  | cons x xs ih => rw [List.map_cons, List.mapM_cons, ih]; rfl

/-- A row of numbers is read as it is. -/
theorem toTensor_vector (xs : List α) : (vector xs).toTensor = .ok ⟨[xs.length], xs⟩ := by
  rw [toTensor, shape?_vector, leaves_vector, mapM_toScalar_real]
  rfl

/-- A table of numbers with at least one row is read row by row. -/
theorem toTensor_matrix (r : List α) (rs : List (List α)) (h : ∀ r' ∈ rs, r'.length = r.length) :
    (matrix (r :: rs)).toTensor = .ok ⟨[rs.length + 1, r.length], (r :: rs).flatten⟩ := by
  rw [toTensor, shape?_matrix r rs h, leaves_matrix, mapM_toScalar_real]
  rfl

end Datum
end Bilevel
