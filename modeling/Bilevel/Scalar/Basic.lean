import Bilevel.Decimal.Numeral

/-!
# Bilevel.Scalar.Basic

The numbers that a program is made of.

* `Scalar` is what is needed of them: arithmetic, an order that is false as soon as one side is
  undefined, rounding to the nearest integer, conversion of numerals and a text.
* The rest is derived: equality and strict order from the order, and the distance to the nearest
  integer.

Two kinds of numbers are instances: doubles, and exact rationals with infinities.
-/

namespace Bilevel

/-- Numbers with infinities and an undefined number. -/
class Scalar (α : Type) where
  zero : α
  one : α
  infinity : α
  undefined : α
  add : α → α → α
  sub : α → α → α
  mul : α → α → α
  neg : α → α
  /-- At most; false as soon as one side is undefined. -/
  le : α → α → Bool
  /-- The number closest to an integer, or nothing if all numbers are too small for it. -/
  ofInt? : Int → Option α
  ofNumeral : Numeral → α
  /-- The nearest integer, of two the even one; infinities and the undefined number have none. -/
  nearest? : α → Option Int
  text : α → String

namespace Scalar

variable {α : Type} [Scalar α]

/-- Less; false as soon as one side is undefined. -/
def lt (a b : α) : Bool :=
  le a b && !le b a

/-- Equal as numbers. The undefined number equals nothing. -/
def eq (a b : α) : Bool :=
  le a b && le b a

/-- Different from zero; the undefined number is. -/
def nonzero (a : α) : Bool :=
  !eq a zero

/-- A count as a number. -/
def ofNat (n : Nat) : α :=
  (ofInt? (n : Int)).getD infinity

/-- The distance to the nearest integer, where there is one. -/
def distance? (a : α) : Option α := do
  let r ← ofInt? (← nearest? a)
  let d := sub a r
  return if le zero d then d else neg d

end Scalar
end Bilevel
