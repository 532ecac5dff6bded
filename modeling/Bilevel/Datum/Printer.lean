import Bilevel.Datum.Basic
import Bilevel.Text.Quoted

/-!
# Bilevel.Datum.Printer

The text of a value of any kind.

* `Datum.literal` writes a value so that its kind is seen: a text stands between quotes.
* `Datum.shown` is the same but for a text, which stands for itself.
-/

namespace Bilevel
namespace Datum

variable {α : Type} [Scalar α]

mutual

/-- A value written so that its kind is seen. -/
def literal : Datum α → String
  | .null => "None"
  | .bool b => if b then "True" else "False"
  | .int n => toString n
  | .real x => Scalar.text x
  | .text s => Text.quoted s
  | .list items => "[" ++ ", ".intercalate (literals items) ++ "]"
  | .object fields => "\x7b" ++ ", ".intercalate (fieldLiterals fields) ++ "\x7d"

def literals : List (Datum α) → List String
  | [] => []
  | d :: rest => d.literal :: literals rest

def fieldLiterals : List (String × Datum α) → List String
  | [] => []
  | (key, d) :: rest => (Text.quoted key ++ ": " ++ d.literal) :: fieldLiterals rest

end

/-- A value for a reader: a text stands for itself. -/
def shown : Datum α → String
  | .text s => s
  | d => d.literal

end Datum
end Bilevel
