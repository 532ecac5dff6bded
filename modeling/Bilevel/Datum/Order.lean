import Bilevel.Datum.Basic

/-!
# Bilevel.Datum.Order

When values of any kind are equal, and which of two is greater.

* `Datum.same` compares by content: numbers by their value, whatever their kind, and sequences item
  by item. The undefined number is not even equal to itself.
* `Datum.exceeds?` knows an order only of numbers, of texts, and of lists, whose first different
  items decide.
* `Datum.integral?` is the integer that a value is equal to.
-/

namespace Bilevel
namespace Datum

variable {α : Type} [Scalar α]

/-- Whether an integer is less than a number, both exactly. -/
def intBelow (n : Int) (x : α) : Bool :=
  match Scalar.nearest? x with
  | some r => if n = r then (Scalar.ofInt? n).any (Scalar.lt · x) else n < r
  | none => Scalar.lt Scalar.zero x

/-- Whether an integer is greater than a number, both exactly. -/
def intAbove (n : Int) (x : α) : Bool :=
  match Scalar.nearest? x with
  | some r => if n = r then (Scalar.ofInt? n).any (Scalar.lt x) else r < n
  | none => Scalar.lt x Scalar.zero

/-- Whether a number is an integer. -/
def intEqual (n : Int) (x : α) : Bool :=
  Scalar.nearest? x == some n && (Scalar.ofInt? n).any (Scalar.eq x)

/-- The integer that a value is equal to. -/
def integral? : Datum α → Option Int
  | .real x => (Scalar.nearest? x).filter (intEqual · x)
  | d => d.whole?

/-- The integer that remains of a number without its fraction. -/
def truncated? (x : α) : Option Int :=
  (Scalar.nearest? x).map fun r =>
    if 0 < r ∧ intAbove r x then r - 1
    else if r < 0 ∧ intBelow r x then r + 1
    else r

mutual

/-- Whether two values are equal. -/
def same : Datum α → Datum α → Bool
  | .null, .null => true
  | .text s, .text t => s = t
  | .list ds, .list es => sameItems ds es
  | .object fs, .object gs => sameFields fs gs
  | .real x, .real y => Scalar.eq x y
  | .real x, e => e.whole?.any (intEqual · x)
  | d, .real y => d.whole?.any (intEqual · y)
  | d, e => d.whole?.any fun n => e.whole? = some n

/-- Whether two lists are equal item by item. -/
def sameItems : List (Datum α) → List (Datum α) → Bool
  | [], [] => true
  | d :: ds, e :: es => d.same e && sameItems ds es
  | _, _ => false

/-- Whether two lists of fields are equal field by field. -/
def sameFields : List (String × Datum α) → List (String × Datum α) → Bool
  | [], [] => true
  | (k, d) :: fs, (l, e) :: gs => k = l && d.same e && sameFields fs gs
  | _, _ => false

end

mutual

/-- Whether the first value is greater, if the two can be compared. -/
def exceeds? : Datum α → Datum α → Option Bool
  | .text s, .text t => some (t < s)
  | .list ds, .list es => itemsExceed? ds es
  | .real x, .real y => some (Scalar.lt y x)
  | .real x, e => e.whole?.map (intBelow · x)
  | d, .real y => d.whole?.map (intAbove · y)
  | d, e =>
    match d.whole?, e.whole? with
    | some m, some n => some (n < m)
    | _, _ => none

/-- Whether the first list is greater: the first items that differ decide, and if there are none,
the length. -/
def itemsExceed? : List (Datum α) → List (Datum α) → Option Bool
  | [], _ => some false
  | _ :: _, [] => some true
  | d :: ds, e :: es => if d.same e then itemsExceed? ds es else d.exceeds? e

end

end Datum
end Bilevel
