import Bilevel.Scalar.Basic

/-!
# Bilevel.Linear.Rows

Rows of numbers, and matrices as lists of rows.

* `dot` multiplies two rows. It sums from zero, first entry first; a single product is taken as it
  is, so that it keeps the sign of a zero.
* `scaled` multiplies a row by a number. Zero times a row is zero, even where the row has infinities
  or undefined numbers; only a single entry is multiplied whatever it is.
* `apply` multiplies a matrix by a row, `combine` adds up the rows of a matrix, each times its
  weight. Both scale if there is only one number to multiply by.
-/

namespace Bilevel

/-- A row of numbers. -/
abbrev Row (α : Type) := List α

/-- A matrix, as the list of its rows. -/
abbrev Rows (α : Type) := List (Row α)

namespace Linear

open Scalar

variable {α : Type} [Scalar α]

/-- A sum from zero; a single number is its own sum. -/
def sum : Row α → α
  | [a] => a
  | as => as.foldl add zero

/-- The product of two rows. -/
def dot (a x : Row α) : α :=
  sum (a.zipWith mul x)

/-- A column of a matrix. -/
def column (m : Rows α) (j : Nat) : Row α :=
  m.map fun row => row.getD j zero

/-- A row times a number. -/
def scaled (w : α) : Row α → Row α
  | [a] => [mul w a]
  | as => as.map fun a => if eq w zero then zero else add zero (mul w a)

/-- The products of the rows of `m` with `x`. -/
def apply (m : Rows α) (x : Row α) : Row α :=
  match x with
  | [w] => scaled w (column m 0)
  | x => m.map fun row => dot row x

/-- The sum of the rows of `m`, each times its entry of `w`, in a row of the given width. -/
def combine (width : Nat) (w : Row α) (m : Rows α) : Row α :=
  match w, m with
  | [a], [row] => scaled a row
  | w, m =>
    (w.zip m).foldl (fun sums (a, row) => (sums.zip row).map fun (s, b) => add s (mul a b))
      (List.replicate width zero)

@[simp] theorem length_scaled (w : α) (as : Row α) : (scaled w as).length = as.length := by
  match as with
  | [] => rfl
  | [a] => rfl
  | a :: b :: as => simp [scaled]

@[simp] theorem length_apply (m : Rows α) (x : Row α) : (apply m x).length = m.length := by
  match x with
  | [] => simp [apply]
  | [w] => simp [apply, column]
  | w :: v :: x => simp [apply]

end Linear
end Bilevel
