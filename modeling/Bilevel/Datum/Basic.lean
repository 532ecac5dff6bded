import Bilevel.Scalar.Basic

/-!
# Bilevel.Datum.Basic

Loose data: what a caller may hand in where a number, an index, a vector or a matrix is expected.

* `Datum` is a value of any kind, over the numbers `α`.
* `truthy` says which values count as yes, `whole?` which integer a value is; `equalsInt` and
  `between?` compare a value with integers.
* `items?` lists what a value holds.
-/

namespace Bilevel

/-- A value of any kind. -/
inductive Datum (α : Type) where
  | null
  | bool (b : Bool)
  | int (n : Int)
  | real (x : α)
  | text (s : String)
  | list (items : List (Datum α))
  | object (fields : List (String × Datum α))
  deriving Inhabited

namespace Datum

variable {α : Type} [Scalar α]

/-- A row of numbers as a list. -/
def vector (xs : List α) : Datum α :=
  .list (xs.map .real)

/-- A table of numbers as a list of lists. -/
def matrix (rows : List (List α)) : Datum α :=
  .list (rows.map vector)

/-- The integers from one to `n`. -/
def upTo (n : Int) : Datum α :=
  .list ((List.range n.toNat).map fun i => .int (i + 1 : Nat))

/-- The characters of a text. -/
def characters (s : String) : List (Datum α) :=
  s.toList.map fun c => .text (String.singleton c)

/-- The items of a sequence: those of a list, the characters of a text, the names in an object. -/
def items? : Datum α → Option (List (Datum α))
  | .list items => some items
  | .text s => some (characters s)
  | .object fields => some (fields.map fun (name, _) => .text name)
  | _ => none

/-- Whether a value counts as yes: all do but nothing, zero, and what is empty. -/
def truthy : Datum α → Bool
  | .null => false
  | .bool b => b
  | .int n => n != 0
  | .real x => Scalar.nonzero x
  | .text s => !s.isEmpty
  | .list items => !items.isEmpty
  | .object fields => !fields.isEmpty

/-- The integer that a value is; yes and no are one and zero. -/
def whole? : Datum α → Option Int
  | .bool b => some b.toInt
  | .int n => some n
  | _ => none

/-- Whether a value is a number equal to an integer; yes and no count as one and zero. -/
def equalsInt (d : Datum α) (n : Int) : Bool :=
  match d with
  | .bool b => b.toInt = n
  | .int k => k = n
  | .real x => (Scalar.ofInt? n).any (Scalar.eq x)
  | _ => false

/-- Whether a value lies between two counts, both included. Only numbers, and yes and no as one and
zero, can be compared at all. -/
def between? (d : Datum α) (low high : Nat) : Option Bool :=
  match d with
  | .bool b => some (low ≤ b.toNat && b.toNat ≤ high)
  | .int n => some (low ≤ n && n ≤ high)
  | .real x => some (Scalar.le (Scalar.ofNat low) x && Scalar.le x (Scalar.ofNat high))
  | _ => none

end Datum
end Bilevel
