import Bilevel.Text.Printable

/-!
# Bilevel.Text.Quoted

A text between quotes.

* Single quotes enclose it, unless it holds a single quote and no double quote.
* A backslash and the enclosing quote take a backslash before them.
* Line feed, carriage return and tabulator have letters; every other character without a visible
  form is written by its code point, with two, four or eight digits of base sixteen.
-/

namespace Bilevel
namespace Text

/-- A number in base sixteen, filled up with zeros to a width. -/
def hex (width n : Nat) : List Char :=
  let digits := Nat.toDigits 16 n
  List.replicate (width - digits.length) '0' ++ digits

/-- One character of a text enclosed by `quote`. -/
def escape (quote c : Char) : List Char :=
  if c = quote || c = '\\' then ['\\', c]
  else if c = '\n' then ['\\', 'n']
  else if c = '\r' then ['\\', 'r']
  else if c = '\t' then ['\\', 't']
  else if isPrintable c then [c]
  else if c.toNat < 0x100 then '\\' :: 'x' :: hex 2 c.toNat
  else if c.toNat < 0x10000 then '\\' :: 'u' :: hex 4 c.toNat
  else '\\' :: 'U' :: hex 8 c.toNat

/-- The quote that encloses a text. -/
def quoteFor (s : String) : Char :=
  let cs := s.toList
  if cs.contains '\'' && !cs.contains '"' then '"' else '\''

/-- A text between quotes. -/
def quoted (s : String) : String :=
  String.ofList (quoteFor s :: (s.toList.flatMap (escape (quoteFor s)) ++ [quoteFor s]))

end Text
end Bilevel
