import Bilevel.Text.Blank
import Bilevel.Text.Digit

/-!
# Bilevel.Decimal.Numeral

Numerals: the texts that name a number, and what they name before any rounding.

* `Numeral` is a signed decimal, a signed infinity or the undefined number.
* `Numeral.ofText?` reads one. Blanks around it are dropped, digits of every script count, and a
  single underscore may stand between two digits. What remains is an optional sign, then digits
  with an optional point and an optional exponent, or one of the words `inf`, `infinity` and `nan`
  in any case.
* `Numeral.integer?` reads a text that is an integer: only a sign and digits remain.
-/

namespace Bilevel

/-- What a numeral names: `digits * 10 ^ exponent` with a sign, or one of the special numbers. -/
inductive Numeral where
  | decimal (negative : Bool) (digits : Nat) (exponent : Int)
  | infinite (negative : Bool)
  | undefined
  deriving Repr, DecidableEq

namespace Numeral

open Text

/-- A character as numerals see it: wide blanks are blanks and digits of every script are the
seven-bit ones. No other character beyond the seven-bit range belongs to a numeral. -/
def plain? (c : Char) : Option Char :=
  if c.toNat < 0x7f then some c
  else if isWideBlank c then some ' '
  else (digitValue? c).map fun d => Char.ofNat (0x30 + d)

/-- Leaves out every underscore that stands between two digits; any other spoils the text. The flag
says whether a digit came just before. -/
def joinGroups? : Bool → List Char → Option (List Char)
  | _, [] => some []
  | afterDigit, '_' :: c :: rest =>
    if afterDigit && c.isDigit then (joinGroups? true rest).map (c :: ·) else none
  | _, c :: rest => if c = '_' then none else (joinGroups? c.isDigit rest).map (c :: ·)

/-- The number that a row of digits writes. -/
def ofDigits (ds : List Char) : Nat :=
  Nat.ofDigitChars 10 ds 0

/-- Splits a leading sign off: whether it is a minus, and the rest. -/
def splitSign : List Char → Bool × List Char
  | '-' :: rest => (true, rest)
  | '+' :: rest => (false, rest)
  | cs => (false, cs)

/-- The exponent at the end of a decimal; nothing at all counts as zero. -/
def exponent? : List Char → Option Int
  | [] => some 0
  | c :: rest =>
    let (negative, ds) := splitSign rest
    if (c = 'e' || c = 'E') && !ds.isEmpty && ds.all Char.isDigit then
      some (if negative then -(ofDigits ds : Int) else ofDigits ds)
    else none

/-- Splits the digits after a point off; without a point there are none. -/
def splitFraction : List Char → List Char × List Char
  | '.' :: rest => rest.span Char.isDigit
  | cs => ([], cs)

/-- A decimal without its sign. At least one digit stands before or after the point. -/
def decimal? (negative : Bool) (cs : List Char) : Option Numeral :=
  let (whole, rest) := cs.span Char.isDigit
  let (fraction, tail) := splitFraction rest
  if whole.isEmpty && fraction.isEmpty then none
  else (exponent? tail).map fun e =>
    .decimal negative (ofDigits (whole ++ fraction)) (e - fraction.length)

/-- A numeral without its sign: one of the words, or a decimal. -/
def unsigned? (negative : Bool) (cs : List Char) : Option Numeral :=
  let word := String.ofList (cs.map Char.toLower)
  if word = "inf" || word = "infinity" then some (.infinite negative)
  else if word = "nan" then some .undefined
  else decimal? negative cs

/-- The numeral that a text holds, if it holds one. -/
def ofText? (s : String) : Option Numeral := do
  let cs ← s.toList.mapM plain?
  let joined ← joinGroups? false (strip cs)
  let (negative, rest) := splitSign joined
  unsigned? negative rest

/-- The integer that a text holds, if it holds one. -/
def integer? (s : String) : Option Int := do
  let cs ← s.toList.mapM plain?
  let joined ← joinGroups? false (strip cs)
  let (negative, ds) := splitSign joined
  if !ds.isEmpty && ds.all Char.isDigit then
    return if negative then -(ofDigits ds : Int) else ofDigits ds
  else none

end Numeral
end Bilevel
