import Bilevel.Decimal.Notation
import Bilevel.Decimal.Shortest
import Bilevel.Scalar.Basic

/-!
# Bilevel.Scalar.Double

Doubles: binary floating point numbers of 64 bits.

* `Double.view` says what the bits of a double mean.
* The nearest integer and the text are computed from that meaning in exact arithmetic. The text
  has the fewest digits that name the double among all doubles.
* The instance of `Scalar` takes everything else from the floating point operations.
-/

namespace Bilevel
namespace Double

/-- What a double means: `significand * 2 ^ exponent` with a sign, or a special number. -/
inductive View where
  | finite (negative : Bool) (significand : Nat) (exponent : Int)
  | infinite (negative : Bool)
  | undefined
  deriving Repr, DecidableEq

/-- The first significand with all 53 bits; smaller ones belong to the smallest doubles. -/
def hiddenBit : Nat := 0x10000000000000

/-- The number of exponents. The last one marks the special numbers. -/
def exponents : Nat := 0x800

/-- The meaning of 64 bits: a sign, eleven bits of exponent and 52 bits of significand. -/
def View.ofBits (b : Nat) : View :=
  let negative : Bool := hiddenBit * exponents ≤ b
  let e : Nat := b / hiddenBit % exponents
  let f : Nat := b % hiddenBit
  if e + 1 = exponents then (if f = 0 then .infinite negative else .undefined)
  else if e = 0 then .finite negative f (-1074)
  else .finite negative (hiddenBit + f) (e - 1075)

/-- The meaning of a double. -/
def view (x : Float) : View :=
  View.ofBits x.toBits.toNat

/-- The numbers that are rounded to `m * 2 ^ q`, and the exponent of their grid. The double below a
power of two is only half as far away as the one above. -/
def span (m : Nat) (q : Int) : Decimal.Span × Int :=
  let narrow := m = hiddenBit && -1074 < q
  let gap := if 0 ≤ q then Nat.pow 2 q.toNat else Nat.pow 5 (-q).toNat
  (⟨m * gap, if narrow then gap else 2 * gap, 2 * gap, m % 2 = 0⟩, min q 0)

/-- The text of a positive double, without a sign. -/
def magnitude (m : Nat) (q : Int) : List Char :=
  let (s, exponent) := span m q
  let (digits, dropped) := s.shortest
  Decimal.write digits (exponent + dropped)

/-- A text with its sign. -/
def signed (negative : Bool) (cs : List Char) : String :=
  String.ofList (if negative then '-' :: cs else cs)

/-- The text of a double: the fewest digits that name it. -/
def text (x : Float) : String :=
  match view x with
  | .undefined => "nan"
  | .infinite negative => signed negative ['i', 'n', 'f']
  | .finite negative m q =>
    signed negative (if m = 0 then ['0', '.', '0'] else magnitude m q)

/-- The integer nearest to `m / 2 ^ k`, of two the even one. -/
def roundShift (m k : Nat) : Nat :=
  let unit := Nat.pow 2 k
  let low := m / unit
  let rest := 2 * (m % unit)
  if unit < rest || (rest = unit && low % 2 = 1) then low + 1 else low

/-- The integer nearest to a finite double. -/
def nearest? (x : Float) : Option Int :=
  match view x with
  | .finite negative m q =>
    let n : Nat := if 0 ≤ q then m * Nat.pow 2 q.toNat else roundShift m (-q).toNat
    some (if negative then -n else n)
  | _ => none

/-- The double nearest to a numeral; beyond the largest double it is an infinity. -/
def ofNumeral : Numeral → Float
  | .decimal negative digits exponent =>
    let x := Float.ofScientific digits (exponent < 0) exponent.natAbs
    if negative then x.neg else x
  | .infinite negative => Float.ofBits (if negative then 0xfff0000000000000 else 0x7ff0000000000000)
  | .undefined => Float.ofBits 0x7ff8000000000000

/-- The double nearest to an integer, unless that is an infinity. -/
def ofInt? (n : Int) : Option Float :=
  let x := Float.ofInt n
  if x.isFinite then some x else none

end Double

instance : Scalar Float where
  zero := Float.ofBits 0
  one := Float.ofBits 0x3ff0000000000000
  infinity := Float.ofBits 0x7ff0000000000000
  undefined := Float.ofBits 0x7ff8000000000000
  add := Float.add
  sub := Float.sub
  mul := Float.mul
  neg := Float.neg
  le := Float.le
  ofInt? := Double.ofInt?
  ofNumeral := Double.ofNumeral
  nearest? := Double.nearest?
  text := Double.text

end Bilevel
