/-!
# Bilevel.Decimal.Notation

How a decimal number is laid out.

* Digits carry no zeros at their end (`trim`).
* With the leading digit's exponent from -4 to 15 the number is written positionally, with at least
  one digit on each side of the point; otherwise with an exponent of a sign and two or more digits.
-/

namespace Bilevel
namespace Decimal

/-- Moves the zeros at the end of `digits` into the exponent. -/
def trim (digits : Nat) (exponent : Int) : Nat × Int :=
  if h : digits = 0 then (0, 0)
  else if digits % 10 = 0 then trim (digits / 10) (exponent + 1)
  else (digits, exponent)
termination_by digits
decreasing_by omega

/-- Digits with the point after the first `point` of them, which may lie outside the digits. -/
def positional (ds : List Char) (point : Int) : List Char :=
  if point ≤ 0 then '0' :: '.' :: (List.replicate (-point).toNat '0' ++ ds)
  else if ds.length ≤ point.toNat then
    ds ++ List.replicate (point.toNat - ds.length) '0' ++ ['.', '0']
  else ds.take point.toNat ++ '.' :: ds.drop point.toNat

/-- An exponent: its sign and at least two digits. -/
def exponentText (e : Int) : List Char :=
  let ds := Nat.toDigits 10 e.natAbs
  (if e < 0 then '-' else '+') :: (List.replicate (2 - ds.length) '0' ++ ds)

/-- Digits with the point after the first and the exponent of the first. -/
def scientific (ds : List Char) (e : Int) : List Char :=
  let fraction := if ds.length ≤ 1 then [] else '.' :: ds.drop 1
  ds.take 1 ++ fraction ++ 'e' :: exponentText e

/-- The text of `digits * 10 ^ exponent`. -/
def write (digits : Nat) (exponent : Int) : List Char :=
  let (digits, exponent) := trim digits exponent
  let ds := Nat.toDigits 10 digits
  let point := exponent + ds.length
  if -4 < point && point ≤ 16 then positional ds point else scientific ds (point - 1)

end Decimal
end Bilevel
