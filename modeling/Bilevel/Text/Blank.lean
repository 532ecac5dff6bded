/-!
# Bilevel.Text.Blank

White space around a number.

* `isBlank` is the white space that is dropped at both ends of any text.
* `isWideBlank` is the white space beyond the seven-bit range; it stands for a blank.
-/

namespace Bilevel
namespace Text

/-- The blank and the five controls from tabulator to carriage return. -/
def isBlank (c : Char) : Bool :=
  c = ' ' || (0x09 ≤ c.toNat && c.toNat ≤ 0x0d)

/-- White space with a code point beyond the seven-bit range. -/
def isWideBlank (c : Char) : Bool :=
  [0x85, 0xa0, 0x1680, 0x2028, 0x2029, 0x202f, 0x205f, 0x3000].contains c.toNat ||
    (0x2000 ≤ c.toNat && c.toNat ≤ 0x200a)

/-- A text without the blanks at its two ends. -/
def strip (cs : List Char) : List Char :=
  ((cs.dropWhile isBlank).reverse.dropWhile isBlank).reverse

end Text
end Bilevel
