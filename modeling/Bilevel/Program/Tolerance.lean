import Bilevel.Datum.Order
import Bilevel.Fault
import Bilevel.Linear.Rows

/-!
# Bilevel.Program.Tolerance

How far a condition may be exceeded.

* A `Tolerance` is one number for all conditions, or an array of numbers, which is laid beside the
  row of conditions: its last dimension has to fit the row, unless one of the two is a single
  column.
* `Tolerance.holds` says whether all entries of a row are at most the tolerance.
* Only a tolerance that is one number can be used for anything but rows.
-/

namespace Bilevel

variable {α : Type} [Scalar α]

/-- How far conditions may be exceeded. -/
inductive Tolerance (α : Type) where
  | number (eps : α)
  /-- An array; what is no number in it cannot be compared. -/
  | array (eps : Tensor (Datum α))

namespace Tolerance

/-- The tolerance of checks that name none: a ten-millionth. -/
def standard : Numeral :=
  .decimal false 1 (-7)

/-- Whether an integer can be stored as a word, with or without a sign. -/
def fitsWord (n : Int) : Bool :=
  -0x8000000000000000 ≤ n && n < 0x10000000000000000

/-- The number as which a value is stored in an array of numbers. -/
def plain? : Datum α → Option α
  | .int n => if fitsWord n then Scalar.ofInt? n else none
  | .bool b => some (if b then Scalar.one else Scalar.zero)
  | .real x => some x
  | _ => none

/-- Whether an array is one of texts: one of its entries is, and all others could be stored as
numbers. -/
def isTextual (entries : List (Datum α)) : Bool :=
  entries.any (fun | .text _ => true | _ => false) &&
    entries.all fun | .text _ => true | d => (plain? d).isSome

/-- An array as a tolerance. If all its entries can be stored as numbers, they are; otherwise all of
them are kept as they are. -/
def ofArray (d : Datum α) : Except (Fault α) (Tolerance α) :=
  match d.shape? with
  | none => throw (.conversion .malformed)
  | some shape =>
    if Datum.maxDims < shape.length then throw (.conversion .malformed)
    else if isTextual d.leaves then throw .notComparable
    else
      match d.leaves.mapM plain? with
      | some numbers => return .array ⟨shape, numbers.map .real⟩
      | none => return .array ⟨shape, d.leaves⟩

/-- A value as a tolerance. A text cannot be compared with numbers, and neither can nothing. -/
def ofDatum (d : Datum α) : Except (Fault α) (Tolerance α) :=
  match d with
  | .bool _ | .int _ | .real _ =>
    match d.toScalar with
    | .ok eps => return .number eps
    | .error why => throw (.conversion why)
  | .list _ => ofArray d
  | .null | .text _ | .object _ => throw .notComparable

/-- A tolerance as requested. -/
def ofRequest : Option (Datum α) → Except (Fault α) (Tolerance α)
  | none => return .number (Scalar.ofNumeral standard)
  | some d => ofDatum d

/-- Whether a number is at most an entry of an array. An integer is compared exactly. -/
def within (a : α) : Datum α → Except (Fault α) Bool
  | .real eps => return Scalar.le a eps
  | d =>
    match d.whole? with
    | some n => return Scalar.eq a a && !Datum.intBelow n a
    | none => throw .notComparable

/-- The entries of a row beside the entries of an array, row by row of the array. -/
def beside (row : Row α) (eps : Tensor (Datum α)) : Option (List (α × Datum α)) :=
  let width := eps.shape.getLastD 1
  if width = 1 ∨ row.length = 1 then
    some (eps.entries.flatMap fun e => row.map fun a => (a, e))
  else if width = row.length then
    some ((List.replicate (eps.entries.length / width) row).flatten.zip eps.entries)
  else none

/-- Whether all entries of a row are at most the tolerance. -/
def holds (row : Row α) : Tolerance α → Except (Fault α) Bool
  | .number eps => return row.all fun a => Scalar.le a eps
  | .array eps =>
    match beside row eps with
    | none => throw (.conversion .malformed)
    | some pairs => do return (← pairs.mapM fun (a, e) => within a e).all id

/-- The number that a tolerance is. -/
def toNumber : Tolerance α → Except (Fault α) α
  | .number eps => return eps
  | .array _ => throw .notComparable

end Tolerance
end Bilevel
