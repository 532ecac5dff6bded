import Bilevel.Scalar.Basic

/-!
# Bilevel.Scalar.Extended

Exact numbers: the rationals, two infinities and an undefined number.

* Arithmetic on rationals is exact. An infinity minus itself and zero times an infinity are
  undefined, and so is whatever involves the undefined number.
* The instance of `Scalar` reads a program over the exact numbers, without any rounding.
-/

namespace Bilevel

/-- A rational number, an infinity or the undefined number. -/
inductive Extended where
  | finite (q : Rat)
  | infinite (negative : Bool)
  | undefined
  deriving DecidableEq

namespace Extended

def add : Extended → Extended → Extended
  | finite a, finite b => finite (a + b)
  | finite _, infinite s => infinite s
  | infinite s, finite _ => infinite s
  | infinite s, infinite t => if s = t then infinite s else undefined
  | undefined, _ => undefined
  | _, undefined => undefined

def neg : Extended → Extended
  | finite a => finite (-a)
  | infinite s => infinite (!s)
  | undefined => undefined

def mul : Extended → Extended → Extended
  | finite a, finite b => finite (a * b)
  | finite a, infinite s => if a = 0 then undefined else infinite (s != decide (a < 0))
  | infinite s, finite a => if a = 0 then undefined else infinite (s != decide (a < 0))
  | infinite s, infinite t => infinite (s != t)
  | undefined, _ => undefined
  | _, undefined => undefined

def le : Extended → Extended → Bool
  | undefined, _ => false
  | _, undefined => false
  | finite a, finite b => a ≤ b
  | infinite s, infinite t => s || !t
  | infinite s, finite _ => s
  | finite _, infinite s => !s

/-- The integer nearest to a rational, of two the even one. -/
def round (q : Rat) : Int :=
  let low := q.floor
  let rest := 2 * (q - low)
  if 1 < rest || (rest = 1 && low % 2 = 1) then low + 1 else low

def nearest? : Extended → Option Int
  | finite q => some (round q)
  | _ => none

def ofNumeral : Numeral → Extended
  | .decimal negative digits exponent =>
    let q : Rat := if 0 ≤ exponent then digits * 10 ^ exponent.toNat
      else digits / 10 ^ (-exponent).toNat
    finite (if negative then -q else q)
  | .infinite negative => infinite negative
  | .undefined => undefined

/-- The text of an exact number: an integer, or two integers with a bar between them. -/
def text : Extended → String
  | finite q => if q.den = 1 then toString q.num else toString q.num ++ "/" ++ toString q.den
  | infinite negative => if negative then "-inf" else "inf"
  | undefined => "nan"

end Extended

instance : Scalar Extended where
  zero := .finite 0
  one := .finite 1
  infinity := .infinite false
  undefined := .undefined
  add := Extended.add
  sub a b := a.add b.neg
  mul := Extended.mul
  neg := Extended.neg
  le := Extended.le
  ofInt? n := some (.finite n)
  ofNumeral := Extended.ofNumeral
  nearest? := Extended.nearest?
  text := Extended.text

end Bilevel
